import ServiceChain.Proofs.TextGrammar

/-! Which texts are MAC addresses: six groups of two digits between separators of one kind. The
reader takes these texts, and besides them those in which a plus sign fills the place of the first
digit of a group. -/
namespace ServiceChain.MacAddress

open Text (IsHexDigit digitIn?_sixteen_iff exists_of_forall₂)

/-- Two digits of base sixteen with this value. -/
def IsPair (cs : List Char) (o : UInt8) : Prop :=
  ∃ high low h l, cs = [high, low] ∧ IsHexDigit high h ∧ IsHexDigit low l ∧ o.toNat = 16 * h + l

/-- One digit of base sixteen behind a plus sign. -/
def IsSigned (cs : List Char) (o : UInt8) : Prop :=
  ∃ low, cs = ['+', low] ∧ IsHexDigit low o.toNat

/-- What is taken for a group: two digits, or one behind a plus sign. -/
def IsTaken (cs : List Char) (o : UInt8) : Prop := IsPair cs o ∨ IsSigned cs o

/-- The text has a group for each octet, all between colons or all between hyphens. -/
def Spells (group : List Char → UInt8 → Prop) (cs : List Char) (m : MacAddress) : Prop :=
  ∃ sep ∈ [':', '-'], ∃ groups, cs = [sep].intercalate groups ∧ List.Forall₂ group groups m.octets

theorem ofNat_eq_iff {n : Nat} (h : n < 256) {o : UInt8} : UInt8.ofNat n = o ↔ o.toNat = n := by
  rw [← UInt8.toNat_inj, UInt8.toNat_ofNat_of_lt' h, eq_comm]

theorem octet?_plus {low : Char} {o : UInt8} :
    octet? ['+', low] = some o ↔ IsHexDigit low o.toNat := by
  simp only [octet?, Option.map_eq_some_iff, digitIn?_sixteen_iff]
  constructor
  · rintro ⟨n, hlow, ho⟩
    have hlt := hlow.lt
    rwa [(ofNat_eq_iff (by omega)).mp ho]
  · exact fun hlow => ⟨o.toNat, hlow, UInt8.ofNat_toNat⟩

theorem value?_pair {high low : Char} {n : Nat} :
    Text.value? 16 [high, low] = some n ↔
      ∃ h l, IsHexDigit high h ∧ IsHexDigit low l ∧ n = 16 * h + l := by
  simp only [Text.value?, Text.valueFrom?, ← digitIn?_sixteen_iff]
  cases Text.digitIn? 16 high with
  | none => simp
  | some h =>
    cases Text.digitIn? 16 low with
    | none => simp
    | some l => simp [eq_comm, Nat.mul_comm]

theorem octet?_pair {high low : Char} (hplus : high ≠ '+') {o : UInt8} :
    octet? [high, low] = some o ↔ IsPair [high, low] o := by
  have hread : octet? [high, low] = (Text.value? 16 [high, low]).map UInt8.ofNat := by
    rw [octet?]
    exact hplus
  simp only [hread, Option.map_eq_some_iff, value?_pair]
  constructor
  · rintro ⟨n, ⟨h, l, hhigh, hlow, rfl⟩, ho⟩
    have hh := hhigh.lt
    have hl := hlow.lt
    exact ⟨high, low, h, l, rfl, hhigh, hlow, (ofNat_eq_iff (by omega)).mp ho⟩
  · rintro ⟨_, _, h, l, heq, hhigh, hlow, ho⟩
    cases heq
    have hbyte := o.toNat_lt
    exact ⟨_, ⟨h, l, hhigh, hlow, rfl⟩, (ofNat_eq_iff (by omega)).mpr ho⟩

theorem IsPair.notMem {c : Char} (hc : Text.digit? c = none) {cs : List Char} {o : UInt8}
    (h : IsPair cs o) : c ∉ cs := by
  have hnot : ∀ {d v}, IsHexDigit d v → c ≠ d := by
    rintro d v hd rfl
    have hsome := hd.isSome_digit?
    rw [hc] at hsome
    cases hsome
  obtain ⟨high, low, h, l, rfl, hhigh, hlow, -⟩ := h
  simp [hnot hhigh, hnot hlow]

theorem IsTaken.notMem {c : Char} (hc : Text.digit? c = none) (hplus : c ≠ '+') {cs : List Char}
    {o : UInt8} (h : IsTaken cs o) : c ∉ cs := by
  rcases h with hpair | ⟨low, rfl, hlow⟩
  · exact hpair.notMem hc
  · rintro hmem
    have hsome := hlow.isSome_digit?
    rcases List.mem_pair.mp hmem with rfl | rfl
    · exact hplus rfl
    · rw [hc] at hsome
      cases hsome

theorem octet?_iff {cs : List Char} {o : UInt8} : octet? cs = some o ↔ IsTaken cs o := by
  constructor
  · intro h
    match cs with
    | [] => simp [octet?] at h
    | [_] => simp [octet?] at h
    | _ :: _ :: _ :: _ => simp [octet?] at h
    | [high, low] =>
      by_cases hplus : high = '+'
      · subst hplus
        exact Or.inr ⟨low, rfl, octet?_plus.mp h⟩
      · exact Or.inl ((octet?_pair hplus).mp h)
  · rintro (hpair | ⟨low, rfl, hlow⟩)
    · have hnone := hpair.notMem (c := '+') (by decide)
      obtain ⟨high, low, _, _, rfl, -⟩ := id hpair
      have hplus : high ≠ '+' := by
        rintro rfl
        exact hnone (List.mem_cons_self ..)
      exact (octet?_pair hplus).mpr hpair
    · exact octet?_plus.mpr hlow

theorem mapM_octet?_iff {groups : List (List Char)} {octets : List UInt8} :
    groups.mapM octet? = some octets ↔ List.Forall₂ IsTaken groups octets := by
  induction groups generalizing octets with
  | nil => simp [eq_comm]
  | cons group rest ih =>
    simp only [List.mapM_cons, Option.bind_eq_bind, Option.bind_eq_some_iff, Option.pure_def,
      Option.some.injEq, octet?_iff, ih]
    constructor
    · rintro ⟨o, hgroup, others, hrest, rfl⟩
      exact .cons hgroup hrest
    · intro h
      cases h with
      | cons hgroup hrest => exact ⟨_, hgroup, _, hrest, rfl⟩

theorem ofOctets?_iff {octets : List UInt8} {m : MacAddress} :
    ofOctets? octets = some m ↔ octets = m.octets := by
  constructor
  · intro h
    match octets, h with
    | [a, b, c, d, e, f], h =>
      cases h
      rfl
  · rintro rfl
    exact ofOctets?_octets m

/-- Pieces of which no one holds a colon show by which separator they were cut. -/
theorem separator_eq {sep : Char} (hsep : sep ∈ [':', '-']) {cs : List Char}
    (hmany : (Text.fields sep cs).length ≠ 1)
    (hcolon : ∀ piece ∈ Text.fields sep cs, ':' ∉ piece) :
    (if ':' ∈ cs then ':' else '-') = sep := by
  rcases List.mem_pair.mp hsep with rfl | rfl
  · refine if_pos ?_
    by_contra hnot
    rw [Text.fields_of_notMem hnot] at hmany
    exact hmany rfl
  · refine if_neg fun hmem => ?_
    obtain ⟨piece, hpiece, hin⟩ := Text.mem_fields hmem (by decide : ':' ≠ '-')
    exact hcolon piece hpiece hin

theorem ofChars?_iff {cs : List Char} {m : MacAddress} :
    ofChars? cs = some m ↔ Spells IsTaken cs m := by
  simp only [ofChars?, Option.bind_eq_some_iff, mapM_octet?_iff, ofOctets?_iff]
  constructor
  · rintro ⟨octets, hgroups, rfl⟩
    refine ⟨_, ?_, _, (Text.intercalate_fields _ cs).symm, hgroups⟩
    split <;> simp
  · rintro ⟨sep, hsep, groups, rfl, hgroups⟩
    have hlength : groups.length = 6 := hgroups.length_eq.trans m.octets_length
    have hsigns : ∀ other ∈ [':', '-'], Text.digit? other = none ∧ other ≠ '+' :=
      List.all_iff_forall_prop.mp (by decide)
    have hnot : ∀ other ∈ [':', '-'], ∀ group ∈ groups, other ∉ group := by
      intro other hother group hgroup
      obtain ⟨o, htaken⟩ := exists_of_forall₂ hgroups group hgroup
      exact htaken.notMem (hsigns other hother).1 (hsigns other hother).2
    have hfields : Text.fields sep ([sep].intercalate groups) = groups := by
      rw [← Text.join_eq_intercalate]
      refine Text.fields_join ?_ (hnot sep hsep)
      rintro rfl
      cases hlength
    have hsame : (if ':' ∈ [sep].intercalate groups then ':' else '-') = sep := by
      refine separator_eq hsep ?_ ?_
      · rw [hfields, hlength]
        decide
      · rw [hfields]
        exact hnot ':' (by decide)
    rw [hsame, hfields]
    exact ⟨_, hgroups, rfl⟩

theorem parse_ok_iff {s : String} {m : MacAddress} :
    parse s = .ok m ↔ Spells IsTaken s.toList m := by
  rw [← ofChars?_iff, parse]
  split
  · next found h => simp [h]
  · next h => simp [h]

theorem parse_error_iff {s : String} :
    parse s = .error (.macFormat s) ↔ ∀ m, parse s ≠ .ok m := by
  simp only [parse]
  split <;> simp

theorem spells_isPair_iff {cs : List Char} {m : MacAddress} :
    Spells IsPair cs m ↔ Spells IsTaken cs m ∧ '+' ∉ cs := by
  have hplus : ∀ sep ∈ [':', '-'], '+' ≠ sep := List.all_iff_forall_prop.mp (by decide)
  constructor
  · rintro ⟨sep, hsep, groups, rfl, hgroups⟩
    refine ⟨⟨sep, hsep, groups, rfl, hgroups.imp fun _ _ => Or.inl⟩, fun hmem => ?_⟩
    obtain ⟨group, hgroup, hin⟩ := (Text.mem_intercalate_iff (hplus sep hsep)).mp hmem
    obtain ⟨o, hpair⟩ := exists_of_forall₂ hgroups group hgroup
    exact hpair.notMem (by decide) hin
  · rintro ⟨⟨sep, hsep, groups, rfl, hgroups⟩, hnone⟩
    rw [Text.mem_intercalate_iff (hplus sep hsep)] at hnone
    have hunsigned : ∀ group ∈ groups, '+' ∉ group :=
      fun group hgroup hin => hnone ⟨group, hgroup, hin⟩
    refine ⟨sep, hsep, groups, rfl, ?_⟩
    refine ((List.forall₂_and_left _ _).mpr ⟨hunsigned, hgroups⟩).imp fun group o hgroup => ?_
    obtain ⟨hno, hpair | ⟨low, rfl, -⟩⟩ := hgroup
    · exact hpair
    · exact absurd (List.mem_cons_self ..) hno

theorem plus_notMem_group : ∀ o, '+' ∉ group o := forall_octet (by decide +kernel)

theorem toLower_group (o : UInt8) : ∀ c ∈ group o, c.toLower = c := by
  have hall : ∀ o, (group o).all (fun c => c.toLower = c) := forall_octet (by decide +kernel)
  exact List.all_iff_forall_prop.mp (hall o)

theorem isPair_group (o : UInt8) : IsPair (group o) o := by
  rcases octet?_iff.mp (octet?_group o) with hpair | ⟨low, hsigned, -⟩
  · exact hpair
  · have hplus := plus_notMem_group o
    rw [hsigned] at hplus
    exact absurd (List.mem_cons_self ..) hplus

theorem toList_text (m : MacAddress) : m.text.toList = [':'].intercalate (m.octets.map group) := by
  simp [text, chars, Text.join_eq_intercalate]

theorem toLower_text (m : MacAddress) : ∀ c ∈ m.text.toList, c.toLower = c := by
  intro c hc
  by_cases hcolon : c = ':'
  · subst hcolon
    rfl
  · rw [toList_text, Text.mem_intercalate_iff hcolon] at hc
    obtain ⟨piece, hpiece, hin⟩ := hc
    obtain ⟨o, -, rfl⟩ := List.mem_map.mp hpiece
    exact toLower_group o c hin

/-- An address is read from six groups, all between colons or all between hyphens; the values of
the groups are its octets. These are texts of twelve digits exactly if there is no plus sign. Any
other text is reported as it stands. An address is printed in small digits between colons, and is
read back from that. -/
theorem parse_iff_spells (s : String) :
    (∀ m, parse s = .ok m ↔ Spells IsTaken s.toList m) ∧
      (∀ m, Spells IsPair s.toList m ↔ parse s = .ok m ∧ '+' ∉ s.toList) ∧
      (parse s = .error (.macFormat s) ↔ ∀ m, ¬ Spells IsTaken s.toList m) ∧
      ∀ m : MacAddress,
        (∃ groups, m.text.toList = [':'].intercalate groups ∧
          List.Forall₂ IsPair groups m.octets) ∧
        (∀ c ∈ m.text.toList, c.toLower = c) ∧ parse m.text = .ok m := by
  refine ⟨fun m => parse_ok_iff, fun m => ?_, ?_, fun m => ⟨?_, toLower_text m, parse_text m⟩⟩
  · rw [spells_isPair_iff, parse_ok_iff]
  · simp only [parse_error_iff, ne_eq, parse_ok_iff]
  · refine ⟨m.octets.map group, toList_text m, ?_⟩
    exact List.forall₂_map_left_iff.mpr (List.forall₂_same.mpr fun o _ => isPair_group o)

/-- A group of one digit is taken if a plus sign fills its place. -/
theorem parse_signed_group :
    parse "+a:11:22:33:44:55" = .ok ⟨10, 17, 34, 51, 68, 85⟩ ∧
      ∀ m, ¬ Spells IsPair "+a:11:22:33:44:55".toList m := by
  refine ⟨by decide, fun m hspells => ?_⟩
  have hnone := (spells_isPair_iff.mp hspells).2
  exact hnone (by decide)

end ServiceChain.MacAddress
