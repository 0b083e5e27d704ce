import ServiceChain.Address.Ip
import ServiceChain.Address.Mac

/-! Texts of addresses read back: digits as their number, pieces between separators as the pieces,
and a double colon as the zero groups it was written for. -/
namespace ServiceChain

namespace Text

theorem digitIn?_digitChar {radix d : Nat} (hradix : radix ≤ 16) (h : d < radix) :
    digitIn? radix (Nat.digitChar d) = some d := by
  have hall : ∀ n : Fin 16, digit? (Nat.digitChar n) = some n.val := by decide
  have hd : digit? (Nat.digitChar d) = some d := hall ⟨d, by omega⟩
  simp [digitIn?, hd, h]

theorem valueFrom?_append {radix acc value : Nat} {cs : List Char} (more : List Char)
    (h : valueFrom? radix acc cs = some value) :
    valueFrom? radix acc (cs ++ more) = valueFrom? radix value more := by
  induction cs generalizing acc with
  | nil =>
    cases h
    rfl
  | cons c rest ih =>
    simp only [List.cons_append, valueFrom?] at h ⊢
    cases hc : digitIn? radix c with
    | none => simp [hc] at h
    | some d =>
      simp only [hc] at h
      exact ih h

theorem value?_toDigits {radix : Nat} (hlow : 1 < radix) (hhigh : radix ≤ 16) (n : Nat) :
    value? radix (Nat.toDigits radix n) = some n := by
  have hne : Nat.toDigits radix n ≠ [] := Nat.toDigits_ne_nil
  have hvalue : valueFrom? radix 0 (Nat.toDigits radix n) = some n := by
    clear hne
    induction n using Nat.base_induction radix hlow with
    | single m hm =>
      rw [Nat.toDigits_of_lt_base hm]
      simp [valueFrom?, digitIn?_digitChar hhigh hm]
    | digit m k hk hm ih =>
      rw [← Nat.toDigits_append_toDigits hlow hm hk, valueFrom?_append _ ih,
        Nat.toDigits_of_lt_base hk]
      simp [valueFrom?, digitIn?_digitChar hhigh hk, Nat.mul_comm]
  cases hdigits : Nat.toDigits radix n with
  | nil => exact absurd hdigits hne
  | cons c rest =>
    rw [hdigits] at hvalue
    exact hvalue

theorem digit_of_valueFrom? {radix acc value : Nat} {cs : List Char}
    (h : valueFrom? radix acc cs = some value) : ∀ c ∈ cs, (digit? c).isSome := by
  induction cs generalizing acc with
  | nil => simp
  | cons c rest ih =>
    simp only [valueFrom?] at h
    cases hc : digitIn? radix c with
    | none => simp [hc] at h
    | some d =>
      simp only [hc] at h
      have hdigit : (digit? c).isSome := by
        have hsome : (digitIn? radix c).isSome := by rw [hc]; rfl
        cases hd : digit? c with
        | none => simp [digitIn?, hd] at hsome
        | some n => rfl
      intro other hother
      rcases List.mem_cons.mp hother with rfl | hrest
      · exact hdigit
      · exact ih h other hrest

theorem digit_of_value? {radix value : Nat} {cs : List Char} (h : value? radix cs = some value) :
    ∀ c ∈ cs, (digit? c).isSome := by
  cases cs with
  | nil => simp
  | cons c rest => exact digit_of_valueFrom? h

theorem notMem_of_value? {radix value : Nat} {cs : List Char} {sep : Char}
    (hsep : digit? sep = none) (h : value? radix cs = some value) : sep ∉ cs := by
  intro hmem
  have hdigit := digit_of_value? h sep hmem
  simp [hsep] at hdigit

theorem join_eq_intercalate (sep : List Char) (pieces : List (List Char)) :
    join sep pieces = sep.intercalate pieces := by
  induction pieces with
  | nil => rfl
  | cons piece more ih =>
    cases more with
    | nil => simp [join]
    | cons next rest =>
      rw [join, ih, List.intercalate_cons_cons]
      simp

theorem fields_of_notMem {sep : Char} {piece : List Char} (h : sep ∉ piece) :
    fields sep piece = [piece] := by
  induction piece with
  | nil => rfl
  | cons c rest ih =>
    have hc : c ≠ sep := fun heq => h (heq ▸ List.mem_cons_self ..)
    have hrest : sep ∉ rest := fun hmem => h (List.mem_cons_of_mem _ hmem)
    simp [fields, hc, ih hrest]

theorem fields_append {sep : Char} {piece : List Char} (h : sep ∉ piece) (rest : List Char) :
    fields sep (piece ++ sep :: rest) = piece :: fields sep rest := by
  induction piece with
  | nil => simp [fields]
  | cons c more ih =>
    have hc : c ≠ sep := fun heq => h (heq ▸ List.mem_cons_self ..)
    have hmore : sep ∉ more := fun hmem => h (List.mem_cons_of_mem _ hmem)
    simp [fields, hc, ih hmore]

theorem fields_join {sep : Char} {pieces : List (List Char)} (hne : pieces ≠ [])
    (h : ∀ piece ∈ pieces, sep ∉ piece) : fields sep (join [sep] pieces) = pieces := by
  induction pieces with
  | nil => exact absurd rfl hne
  | cons piece more ih =>
    have hpiece : sep ∉ piece := h piece (List.mem_cons_self ..)
    cases more with
    | nil => exact fields_of_notMem hpiece
    | cons next rest =>
      have hmore : fields sep (join [sep] (next :: rest)) = next :: rest :=
        ih (by simp) fun other hother => h other (List.mem_cons_of_mem _ hother)
      have hsplit := fields_append hpiece (join [sep] (next :: rest))
      rw [hmore] at hsplit
      simpa [join] using hsplit

theorem mem_fields {sep c : Char} {cs : List Char} (hc : c ∈ cs) (hsep : c ≠ sep) :
    ∃ piece ∈ fields sep cs, c ∈ piece := by
  induction cs with
  | nil => cases hc
  | cons first rest ih =>
    simp only [fields]
    split
    · next heq =>
      rcases List.mem_cons.mp hc with rfl | hrest
      · exact absurd heq hsep
      · obtain ⟨piece, hpiece, hmem⟩ := ih hrest
        exact ⟨piece, List.mem_cons_of_mem _ hpiece, hmem⟩
    · cases hfields : fields sep rest with
      | nil => exact absurd hfields (fields_ne_nil sep rest)
      | cons piece more =>
        rcases List.mem_cons.mp hc with rfl | hrest
        · exact ⟨c :: piece, List.mem_cons_self .., List.mem_cons_self ..⟩
        · obtain ⟨found, hfound, hmem⟩ := ih hrest
          rw [hfields] at hfound
          rcases List.mem_cons.mp hfound with rfl | hmore
          · exact ⟨first :: found, List.mem_cons_self .., List.mem_cons_of_mem _ hmem⟩
          · exact ⟨found, List.mem_cons_of_mem _ hmore, hmem⟩

end Text

theorem forall_octet {holds : UInt8 → Prop} (h : ∀ n : Fin 256, holds (UInt8.ofNat n)) (o : UInt8) :
    holds o := by
  have ho := h ⟨o.toNat, o.toNat_lt⟩
  rwa [UInt8.ofNat_toNat] at ho

namespace MacAddress

theorem octet?_group : ∀ o, octet? (group o) = some o := forall_octet (by decide +kernel)

theorem colon_notMem_group : ∀ o, ':' ∉ group o := forall_octet (by decide +kernel)

theorem parse_text (m : MacAddress) : parse m.text = .ok m := by
  have hcolon : ':' ∈ m.chars := by simp [chars, octets, Text.join]
  have hfields : Text.fields ':' m.chars = m.octets.map group := by
    refine Text.fields_join (by simp [octets]) fun piece hpiece => ?_
    obtain ⟨o, -, rfl⟩ := List.mem_map.mp hpiece
    exact colon_notMem_group o
  have hoctets : (m.octets.map group).mapM octet? = some m.octets := by
    simp [octets, octet?_group]
  simp [parse, text, ofChars?, hcolon, hfields, hoctets]

end MacAddress

namespace IpAddress

def octetChars (o : UInt8) : List Char := Nat.toDigits 10 o.toNat

theorem octet?_octetChars : ∀ o, octet? (octetChars o) = some o := forall_octet (by decide +kernel)

theorem octet?_value {cs : List Char} {o : UInt8} (h : octet? cs = some o) :
    ∃ n, Text.value? 10 cs = some n := by
  simp only [octet?] at h
  split at h
  · cases hvalue : Text.value? 10 cs with
    | none => simp [hvalue] at h
    | some n => exact ⟨n, rfl⟩
  · cases h

theorem toList_dotted (a b c d : UInt8) :
    (dotted a b c d).toList = Text.join ['.'] ([a, b, c, d].map octetChars) := by
  have hdot : (toString ".").toList = ['.'] := rfl
  simp [dotted, Text.join, octetChars, hdot]

theorem dotted?_dotted (a b c d : UInt8) : dotted? (dotted a b c d).toList = some [a, b, c, d] := by
  have hdot : ∀ piece ∈ [a, b, c, d].map octetChars, '.' ∉ piece := by
    intro piece hpiece
    obtain ⟨o, -, rfl⟩ := List.mem_map.mp hpiece
    obtain ⟨n, hvalue⟩ := octet?_value (octet?_octetChars o)
    exact Text.notMem_of_value? (by decide) hvalue
  have hoctets : ([a, b, c, d].map octetChars).mapM octet? = some [a, b, c, d] := by
    simp [octet?_octetChars]
  rw [dotted?, toList_dotted, Text.fields_join (by simp) hdot, hoctets]
  rfl

theorem exists_octet_of_mapM {pieces : List (List Char)} {octets : List UInt8}
    (h : pieces.mapM octet? = some octets) : ∀ piece ∈ pieces, ∃ o, octet? piece = some o := by
  induction pieces generalizing octets with
  | nil => simp
  | cons first rest ih =>
    simp only [List.mapM_cons, Option.bind_eq_bind, Option.bind_eq_some_iff] at h
    obtain ⟨o, hfirst, others, hrest, -⟩ := h
    intro piece hpiece
    rcases List.mem_cons.mp hpiece with rfl | hmem
    · exact ⟨o, hfirst⟩
    · exact ih hrest piece hmem

theorem dotted?_eq_none {cs : List Char} (hcolon : ':' ∈ cs) : dotted? cs = none := by
  cases hoctets : (Text.fields '.' cs).mapM octet? with
  | none => simp [dotted?, hoctets]
  | some octets =>
    obtain ⟨piece, hpiece, hmem⟩ := Text.mem_fields hcolon (by decide : ':' ≠ '.')
    obtain ⟨o, hread⟩ := exists_octet_of_mapM hoctets piece hpiece
    obtain ⟨n, hvalue⟩ := octet?_value hread
    exact absurd hmem (Text.notMem_of_value? (by decide) hvalue)

theorem parse?_of_colon {s : String} (hcolon : ':' ∈ s.toList) :
    parse? s = (v6Groups? s.toList).bind ofGroups? := by
  rw [parse?, ofChars?, dotted?_eq_none hcolon]
  rfl

def groupChars (g : UInt16) : List Char := Nat.toDigits 16 g.toNat

theorem toList_groupText (g : UInt16) : (groupText g).toList = groupChars g := by
  simp [groupText, groupChars]

theorem group?_groupChars (g : UInt16) : group? (groupChars g) = some g := by
  have hlength : (groupChars g).length ≤ 4 :=
    (Nat.length_toDigits_le_iff (by decide) (by decide)).mpr g.toNat_lt
  have hvalue : Text.value? 16 (groupChars g) = some g.toNat :=
    Text.value?_toDigits (by decide) (by decide) g.toNat
  simp [group?, hlength, hvalue]

theorem colon_notMem_groupChars (g : UInt16) : ':' ∉ groupChars g :=
  Text.notMem_of_value? (by decide) (Text.value?_toDigits (by decide) (by decide) g.toNat)

theorem groupChars_ne_nil (g : UInt16) : groupChars g ≠ [] := Nat.toDigits_ne_nil

def colonChars (gs : List UInt16) : List Char := Text.join [':'] (gs.map groupChars)

theorem toList_colonText (gs : List UInt16) : (colonText gs).toList = colonChars gs := by
  have hgroups : String.toList ∘ groupText = groupChars := funext toList_groupText
  simp [colonText, colonChars, Text.join_eq_intercalate, hgroups]

theorem fields_colonChars {gs : List UInt16} (h : gs ≠ []) :
    Text.fields ':' (colonChars gs) = gs.map groupChars := by
  refine Text.fields_join (by simpa using h) fun piece hpiece => ?_
  obtain ⟨g, -, rfl⟩ := List.mem_map.mp hpiece
  exact colon_notMem_groupChars g

theorem groups?_map (tail : Bool) (gs : List UInt16) :
    groups? tail (gs.map groupChars) = some gs := by
  induction gs with
  | nil => rfl
  | cons g rest ih =>
    cases rest with
    | nil => simp [groups?, group?_groupChars]
    | cons next more =>
      rw [List.map_cons] at ih
      simp [groups?, group?_groupChars, ih]

theorem colonChars_eq_nil {gs : List UInt16} : colonChars gs = [] ↔ gs = [] := by
  cases gs with
  | nil => simp [colonChars, Text.join]
  | cons g rest => cases rest <;> simp [colonChars, Text.join, groupChars_ne_nil]

theorem side?_colonChars (tail : Bool) (gs : List UInt16) :
    side? tail (colonChars gs) = some gs := by
  by_cases hgs : gs = []
  · subst hgs
    rfl
  · cases hchars : colonChars gs with
    | nil => exact absurd (colonChars_eq_nil.mp hchars) hgs
    | cons c cs =>
      simp only [side?]
      rw [← hchars, fields_colonChars hgs, groups?_map]

theorem splitGap?_append {piece rest : List Char} (hpiece : ':' ∉ piece) :
    splitGap? (piece ++ rest) = (splitGap? rest).map fun (head, tail) => (piece ++ head, tail) := by
  induction piece with
  | nil => simp
  | cons c more ih =>
    have hc : c ≠ ':' := fun heq => hpiece (heq ▸ List.mem_cons_self ..)
    have hmore : ':' ∉ more := fun hmem => hpiece (List.mem_cons_of_mem _ hmem)
    rw [List.cons_append, splitGap?, ih hmore, Option.map_map]
    · rfl
    · intro other heq
      exact absurd heq hc

theorem colonChars_cons (g : UInt16) (rest : List UInt16) :
    ∃ c tail, colonChars (g :: rest) = c :: tail ∧ c ≠ ':' := by
  obtain ⟨more, hmore⟩ : ∃ more, colonChars (g :: rest) = groupChars g ++ more := by
    cases rest with
    | nil => exact ⟨[], by simp [colonChars, Text.join]⟩
    | cons next others =>
      exact ⟨':' :: colonChars (next :: others), by simp [colonChars, Text.join]⟩
  cases hchars : groupChars g with
  | nil => exact absurd hchars (groupChars_ne_nil g)
  | cons c cs =>
    have hcolon : ':' ∉ c :: cs := hchars ▸ colon_notMem_groupChars g
    refine ⟨c, cs ++ more, by rw [hmore, hchars, List.cons_append], ?_⟩
    rintro rfl
    exact hcolon (List.mem_cons_self ..)

theorem splitGap?_colonChars (gs : List UInt16) (rest : List Char) :
    splitGap? (colonChars gs ++ rest) =
      (splitGap? rest).map fun (head, tail) => (colonChars gs ++ head, tail) := by
  induction gs with
  | nil => simp [colonChars, Text.join]
  | cons g more ih =>
    cases more with
    | nil => simpa [colonChars, Text.join] using splitGap?_append (colon_notMem_groupChars g)
    | cons next others =>
      obtain ⟨c, cs, hchars, hc⟩ := colonChars_cons next others
      have hsplit : colonChars (g :: next :: others) =
          groupChars g ++ ':' :: colonChars (next :: others) := by
        simp [colonChars, Text.join]
      have hcolon : splitGap? (':' :: (colonChars (next :: others) ++ rest)) =
          (splitGap? (colonChars (next :: others) ++ rest)).map
            fun (head, tail) => (':' :: head, tail) := by
        rw [hchars, List.cons_append, splitGap?]
        intro more _ heq
        exact absurd (List.cons.inj heq).1 hc
      rw [hsplit, List.append_assoc, List.cons_append, splitGap?_append (colon_notMem_groupChars g),
        hcolon, ih, Option.map_map, Option.map_map]
      congr 1
      funext ⟨head, tail⟩
      simp

theorem eq_replicate_zeroRun (gs : List UInt16) :
    gs = List.replicate (zeroRun gs) 0 ++ gs.drop (zeroRun gs) := by
  induction gs with
  | nil => rfl
  | cons g rest ih =>
    simp only [zeroRun]
    split
    · next hzero =>
      subst hzero
      rw [List.replicate_succ, List.cons_append, List.drop_succ_cons, ← ih]
    · rfl

theorem longestRun_spec (i : Nat) (gs : List UInt16) :
    ∃ k, (longestRun i gs).1 = i + k ∧
      gs = gs.take k ++ List.replicate (longestRun i gs).2 0 ++
        gs.drop (k + (longestRun i gs).2) := by
  induction gs generalizing i with
  | nil => exact ⟨0, rfl, rfl⟩
  | cons g rest ih =>
    simp only [longestRun]
    split
    · exact ⟨0, rfl, by simpa using eq_replicate_zeroRun (g :: rest)⟩
    · obtain ⟨k, hstart, hrest⟩ := ih (i + 1)
      refine ⟨k + 1, by omega, ?_⟩
      have hdrop : (g :: rest).drop (k + 1 + (longestRun (i + 1) rest).2) =
          rest.drop (k + (longestRun (i + 1) rest).2) := by
        rw [show k + 1 + (longestRun (i + 1) rest).2 = k + (longestRun (i + 1) rest).2 + 1 by omega,
          List.drop_succ_cons]
      rw [hdrop, List.take_succ_cons, List.cons_append, List.cons_append]
      exact congrArg (g :: ·) hrest

theorem v6Groups?_colonChars {gs : List UInt16} (h : gs ≠ []) :
    v6Groups? (colonChars gs) = some gs := by
  have hsplit := splitGap?_colonChars gs []
  simp only [List.append_nil, splitGap?, Option.map_none] at hsplit
  rw [v6Groups?, hsplit]
  simp only
  rw [fields_colonChars h, groups?_map]

/-- A double colon between groups stands for the zero groups that are missing to eight. -/
theorem v6Groups?_gap {before after : List UInt16} (h : before.length + after.length ≤ 7) :
    v6Groups? (colonChars before ++ ':' :: ':' :: colonChars after) =
      some (before ++ List.replicate (8 - before.length - after.length) 0 ++ after) := by
  have hsplit := splitGap?_colonChars before (':' :: ':' :: colonChars after)
  simp only [splitGap?, Option.map_some, List.append_nil] at hsplit
  rw [v6Groups?, hsplit]
  simp only [side?_colonChars, Option.bind_eq_bind, Option.bind_some, if_pos h]
  rfl

theorem v6Groups?_v6Text {gs : List UInt16} (h : gs.length = 8) :
    v6Groups? (v6Text gs).toList = some gs := by
  obtain ⟨k, hstart, hgs⟩ := longestRun_spec 0 gs
  simp only [v6Text]
  split
  · next hlen =>
    have hchars : (colonText (gs.take (longestRun 0 gs).1) ++ "::" ++
        colonText (gs.drop ((longestRun 0 gs).1 + (longestRun 0 gs).2))).toList =
          colonChars (gs.take k) ++
            ':' :: ':' :: colonChars (gs.drop (k + (longestRun 0 gs).2)) := by
      have hgap : "::".toList = [':', ':'] := rfl
      rw [hstart]
      simp [toList_colonText, hgap]
    have hlength := congrArg List.length hgs
    simp only [List.length_append, List.length_replicate] at hlength
    have hrun : 8 - (gs.take k).length - (gs.drop (k + (longestRun 0 gs).2)).length =
        (longestRun 0 gs).2 := by omega
    rw [hchars, v6Groups?_gap (by omega), hrun, ← hgs]
  · have hne : gs ≠ [] := by
      rintro rfl
      cases h
    rw [toList_colonText, v6Groups?_colonChars hne]

theorem pair_high_low (g : UInt16) : pair (high g) (low g) = g := by
  apply UInt16.toNat_inj.mp
  have hg := g.toNat_lt
  simp [pair, high, low]
  omega

theorem colon_mem_v6Text {gs : List UInt16} (h : gs.length = 8) : ':' ∈ (v6Text gs).toList := by
  simp only [v6Text]
  split
  · have hgap : "::".toList = [':', ':'] := rfl
    simp [hgap]
  · rw [toList_colonText]
    match gs, h with
    | first :: next :: rest, _ => simp [colonChars, Text.join]

theorem v6Groups?_embedded (a b c d : UInt8) :
    v6Groups? ("::ffff:" ++ dotted a b c d).toList =
      some [0, 0, 0, 0, 0, 0xffff, pair a b, pair c d] := by
  have hread : dotted? (dotted a b c d).toList = some [a, b, c, d] := dotted?_dotted a b c d
  have hcolon : ':' ∉ (dotted a b c d).toList := by
    intro hmem
    rw [dotted?_eq_none hmem] at hread
    cases hread
  have hgroup : group? (dotted a b c d).toList = none := by
    have hdot : '.' ∈ (dotted a b c d).toList := by simp [toList_dotted, Text.join]
    cases hvalue : Text.value? 16 (dotted a b c d).toList with
    | none => simp [group?, hvalue]
    | some n => exact absurd hdot (Text.notMem_of_value? (by decide) hvalue)
  have hfields : Text.fields ':' ('f' :: 'f' :: 'f' :: 'f' :: ':' :: (dotted a b c d).toList) =
      [['f', 'f', 'f', 'f'], (dotted a b c d).toList] := by
    rw [← Text.fields_of_notMem hcolon]
    exact Text.fields_append (by decide : ':' ∉ ['f', 'f', 'f', 'f']) _
  have hside : side? true ('f' :: 'f' :: 'f' :: 'f' :: ':' :: (dotted a b c d).toList) =
      some [0xffff, pair a b, pair c d] := by
    have hfirst : group? ['f', 'f', 'f', 'f'] = some 0xffff := by decide
    simp [side?, hfields, groups?, hfirst, hgroup, hread, octetGroups]
  have hchars : ("::ffff:" ++ dotted a b c d).toList =
      ':' :: ':' :: 'f' :: 'f' :: 'f' :: 'f' :: ':' :: (dotted a b c d).toList := by
    have hstart : "::ffff:".toList = [':', ':', 'f', 'f', 'f', 'f', ':'] := rfl
    rw [String.toList_append, hstart]
    rfl
  have hempty : side? false [] = some [] := rfl
  rw [hchars, v6Groups?, splitGap?]
  simp only [hempty, hside, Option.bind_eq_bind, Option.bind_some]
  rfl

/-- What is printed for an address reads back as the address. -/
theorem parse?_text (ip : IpAddress) : parse? ip.text = some ip := by
  cases ip with
  | v4 a b c d => simp [text, parse?, ofChars?, dotted?_dotted, ofOctets?]
  | v6 a b c d e f g h =>
    simp only [text]
    split
    · next hembeds =>
      obtain ⟨hzero, rfl⟩ := hembeds
      have hcolon : ':' ∈ ("::ffff:" ++ dotted (high g) (low g) (high h) (low h)).toList := by
        simp
      rw [parse?_of_colon hcolon, v6Groups?_embedded, pair_high_low, pair_high_low]
      cases hzero
      rfl
    · rw [parse?_of_colon (colon_mem_v6Text rfl), v6Groups?_v6Text rfl]
      rfl

end IpAddress
end ServiceChain
