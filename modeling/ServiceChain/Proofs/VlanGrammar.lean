import ServiceChain.Address.Vlan
import ServiceChain.Proofs.TextGrammar

/-! Which texts are VLAN ids: a decimal number in their range, bare or behind the word for them. The
reader takes these texts and refuses the others, save those that it would have to cut inside a
character. -/
namespace ServiceChain.VlanId

open Text (byteLength cutBytes? IsNumeral signedDecimal? signedDecimal?_iff)

/-- The word that may stand before a number, in any case. -/
def IsLeadingWord (cs : List Char) : Prop := cs.map Char.toLower = "vlan".toList

instance (cs : List Char) : Decidable (IsLeadingWord cs) :=
  inferInstanceAs (Decidable (cs.map Char.toLower = "vlan".toList))

/-- The text without the word, if it begins with it. -/
def withoutWord (cs : List Char) : List Char :=
  if IsLeadingWord (cs.take 4) then cs.drop 4 else cs

theorem isWord_iff {cs : List Char} : isWord cs ↔ IsLeadingWord cs := by
  have hword : "vlan".toList = ['v', 'l', 'a', 'n'] := rfl
  rw [isWord, decide_eq_true_iff, IsLeadingWord, hword]

namespace IsLeadingWord

variable {cs : List Char}

theorem length (h : IsLeadingWord cs) : cs.length = 4 := by
  have hlength := congrArg List.length h
  rwa [List.length_map] at hlength

theorem ascii (h : IsLeadingWord cs) : ∀ c ∈ cs, c.toNat < 128 := by
  intro c hc
  by_contra hnot
  have hbeyond : 128 ≤ c.toNat := Nat.le_of_not_lt hnot
  have hmem : c ∈ "vlan".toList := by
    rw [← h]
    exact List.mem_map.mpr ⟨c, hc, Text.toLower_of_beyond hbeyond⟩
  exact Text.notMem_of_beyond hbeyond (by decide) hmem

theorem cutBytes? (h : IsLeadingWord (cs.take 4)) :
    Text.cutBytes? 4 cs = some (cs.take 4, cs.drop 4) := by
  have hlength := h.length
  rw [List.length_take] at hlength
  exact Text.cutBytes?_of_ascii h.ascii (by omega)

theorem not_isNumeral (h : IsLeadingWord (cs.take 4)) (n : Nat) : ¬ IsNumeral cs n := by
  cases cs with
  | nil => cases h
  | cons c rest =>
    have hfirst : c.toLower = 'v' := (List.cons.inj h).1
    rintro (⟨-, ds, hds, -⟩ | ⟨more, hplus, -⟩)
    · have hdigit : ∀ d ∈ Text.decimalDigits, d.toLower ≠ 'v' :=
        List.all_iff_forall_prop.mp (by decide)
      cases hds with
      | cons hc _ => exact hdigit c hc.mem hfirst
    · obtain ⟨rfl, -⟩ := List.cons.inj hplus
      exact absurd hfirst (by decide)

end IsLeadingWord

theorem withoutWord_append {word rest : List Char} (h : IsLeadingWord word) :
    withoutWord (word ++ rest) = rest := by
  rw [withoutWord, List.take_left' h.length, if_pos h, List.drop_left' h.length]

theorem withoutWord_of_cut {cs head rest : List Char} (h : cutBytes? 4 cs = some (head, rest)) :
    withoutWord cs = if isWord head then rest else cs := by
  obtain ⟨hcs, -⟩ := Text.cutBytes?_iff.mp h
  have hiff : IsLeadingWord (cs.take 4) ↔ IsLeadingWord head := by
    constructor
    · intro hword
      obtain ⟨rfl, -⟩ := Prod.mk.inj (Option.some.inj (h.symm.trans hword.cutBytes?))
      exact hword
    · intro hword
      rwa [hcs, List.take_left' hword.length]
  simp only [withoutWord, hiff, isWord_iff]
  split
  · next hword => rw [hcs, List.drop_left' hword.length]
  · rfl

/-- The number of sixteen bits that the characters are; 0 if they are none. -/
def StandsFor (cs : List Char) (n : Nat) : Prop :=
  (n < 65536 ∧ IsNumeral cs n) ∨ (n = 0 ∧ ∀ k < 65536, ¬ IsNumeral cs k)

theorem exists_standsFor (cs : List Char) : ∃ n, StandsFor cs n := by
  by_cases h : ∃ k < 65536, IsNumeral cs k
  · obtain ⟨k, hlt, hk⟩ := h
    exact ⟨k, Or.inl ⟨hlt, hk⟩⟩
  · exact ⟨0, Or.inr ⟨rfl, fun k hlt hk => h ⟨k, hlt, hk⟩⟩⟩

theorem StandsFor.unique {cs : List Char} {m n : Nat} (hm : StandsFor cs m)
    (hn : StandsFor cs n) : m = n := by
  rcases hm with ⟨hlt, hm⟩ | ⟨rfl, hnone⟩
  · rcases hn with ⟨-, hn⟩ | ⟨-, hnone⟩
    · exact hm.unique hn
    · exact absurd hm (hnone m hlt)
  · rcases hn with ⟨hlt, hn⟩ | ⟨rfl, -⟩
    · exact absurd hn (hnone n hlt)
    · rfl

theorem StandsFor.number_eq_iff {cs : List Char} {n : Nat} (hn : StandsFor cs n) {v : VlanId} :
    v.number = n ↔ IsNumeral cs v.number := by
  have hfirst := v.one_le
  have hlast := v.le_max
  constructor
  · intro heq
    rcases hn with ⟨-, hnumeral⟩ | ⟨hzero, -⟩
    · rwa [heq]
    · omega
  · exact fun hnumeral => StandsFor.unique (Or.inl ⟨by omega, hnumeral⟩) hn

theorem checked_ok_iff {n : Nat} {v : VlanId} : checked n = .ok v ↔ v.number = n := by
  simp only [checked]
  split
  · next found hfound =>
    rw [Except.ok.injEq, ← number_of_ofNat? hfound, VlanId.ext_iff, eq_comm]
  · next hnone =>
    simp only [reduceCtorEq, false_iff]
    rintro rfl
    rw [ofNat?_number] at hnone
    cases hnone

theorem checked_error_iff {n : Nat} {reason : Refusal} :
    checked n = .error reason ↔ (∀ v : VlanId, v.number ≠ n) ∧ reason = .vlanId n := by
  simp only [checked]
  split
  · next found hfound =>
    simp only [reduceCtorEq, false_iff, not_and]
    exact fun hnone => absurd (number_of_ofNat? hfound) (hnone found)
  · next hnone =>
    rw [Except.error.injEq, eq_comm]
    refine (and_iff_right fun v hv => ?_).symm
    rw [← hv, ofNat?_number] at hnone
    cases hnone

theorem StandsFor.ofDigits_eq {cs : List Char} {n : Nat} (h : StandsFor cs n) :
    ofDigits cs = checked n := by
  simp only [ofDigits]
  cases hread : signedDecimal? cs with
  | none =>
    rcases h with ⟨-, hnumeral⟩ | ⟨rfl, -⟩
    · rw [signedDecimal?_iff.mpr hnumeral] at hread
      cases hread
    · rfl
  | some k =>
    have hk := signedDecimal?_iff.mp hread
    simp only
    rcases h with ⟨hlt, hnumeral⟩ | ⟨rfl, hnone⟩
    · rw [hk.unique hnumeral, if_pos hlt]
    · rw [if_neg fun hlt => hnone k hlt hk]

/-- Of a text of four bytes at most only the word itself has anything cut off, and neither the word
nor what is left is a number. -/
theorem StandsFor.of_withoutWord {cs : List Char} (hshort : byteLength cs ≤ 4) {n : Nat}
    (h : StandsFor (withoutWord cs) n) : StandsFor cs n := by
  by_cases hword : IsLeadingWord (cs.take 4)
  · have hlength := Text.length_le_byteLength cs
    have hnothing : cs.drop 4 = [] := List.drop_of_length_le (by omega)
    rw [withoutWord, if_pos hword, hnothing] at h
    rcases h with ⟨-, hnil | ⟨rest, hplus, -⟩⟩ | ⟨rfl, -⟩
    · exact absurd rfl hnil.1
    · cases hplus
    · exact Or.inr ⟨rfl, fun k _ => hword.not_isNumeral k⟩
  · rwa [withoutWord, if_neg hword] at h

/-- The text goes on behind its first four bytes, and these end inside a character. -/
def SplitsCharacter (s : String) : Prop :=
  4 < s.utf8ByteSize ∧ ¬ String.Pos.Raw.IsValid s ⟨4⟩

theorem splitsCharacter_iff {s : String} :
    SplitsCharacter s ↔ 4 < byteLength s.toList ∧ cutBytes? 4 s.toList = none := by
  rw [SplitsCharacter, ← Text.isSome_cutBytes?_iff, Text.byteLength_eq, String.ofList_toList]
  simp

theorem mapError_ok_iff {result : Except Refusal VlanId} {v : VlanId} :
    result.mapError Fault.refused = .ok v ↔ result = .ok v := by
  cases result <;> simp [Except.mapError]

theorem mapError_error_iff {result : Except Refusal VlanId} {fault : Fault} :
    result.mapError Fault.refused = .error fault ↔
      ∃ reason, result = .error reason ∧ .refused reason = fault := by
  cases result <;> simp [Except.mapError]

theorem parse_eq (s : String) :
    parse s =
      if byteLength s.toList ≤ 4 then (ofDigits s.toList).mapError .refused
      else
        match cutBytes? 4 s.toList with
        | none => .error .splitCharacter
        | some (head, rest) =>
          (ofDigits (if isWord head then rest else s.toList)).mapError .refused := by
  simp only [parse]
  split
  · cases ofDigits s.toList <;> rfl
  · cases cutBytes? 4 s.toList with
    | none => rfl
    | some cut =>
      simp only
      split
      · cases ofDigits cut.2 <;> rfl
      · cases ofDigits s.toList <;> rfl

theorem SplitsCharacter.parse_eq {s : String} (h : SplitsCharacter s) :
    parse s = .error .splitCharacter := by
  obtain ⟨hlong, hnone⟩ := splitsCharacter_iff.mp h
  rw [VlanId.parse_eq, if_neg (by omega), hnone]

theorem parse_of_not_splits {s : String} (h : ¬ SplitsCharacter s) {n : Nat}
    (hn : StandsFor (withoutWord s.toList) n) : parse s = (checked n).mapError .refused := by
  rw [parse_eq]
  split
  · next hshort => rw [(hn.of_withoutWord hshort).ofDigits_eq]
  · next hlong =>
    split
    · next hnone => exact absurd (splitsCharacter_iff.mpr ⟨by omega, hnone⟩) h
    · next head rest hcut => rw [← withoutWord_of_cut hcut, hn.ofDigits_eq]

/-- A number splits no character: behind the word all can be cut, and without it all characters
have one byte. -/
theorem SplitsCharacter.not_isNumeral {s : String} (h : SplitsCharacter s) (n : Nat) :
    ¬ IsNumeral (withoutWord s.toList) n := by
  obtain ⟨hlong, hnone⟩ := splitsCharacter_iff.mp h
  intro hnumeral
  by_cases hword : IsLeadingWord (s.toList.take 4)
  · rw [hword.cutBytes?] at hnone
    cases hnone
  · rw [withoutWord, if_neg hword] at hnumeral
    have hascii := hnumeral.ascii
    rw [Text.byteLength_of_ascii hascii] at hlong
    have hcut := Text.cutBytes?_of_ascii (n := 4)
      (fun c hc => hascii c (List.mem_of_mem_take hc)) (by omega)
    rw [hcut] at hnone
    cases hnone

theorem parse_ok_iff {s : String} {v : VlanId} :
    parse s = .ok v ↔ IsNumeral (withoutWord s.toList) v.number := by
  by_cases hsplits : SplitsCharacter s
  · rw [hsplits.parse_eq]
    simpa using hsplits.not_isNumeral v.number
  · obtain ⟨n, hn⟩ := exists_standsFor (withoutWord s.toList)
    rw [parse_of_not_splits hsplits hn, mapError_ok_iff, checked_ok_iff, hn.number_eq_iff]

theorem parse_refused_iff {s : String} {reason : Refusal} :
    parse s = .error (.refused reason) ↔
      ¬ SplitsCharacter s ∧ (∀ v : VlanId, ¬ IsNumeral (withoutWord s.toList) v.number) ∧
        ∃ n, StandsFor (withoutWord s.toList) n ∧ reason = .vlanId n := by
  by_cases hsplits : SplitsCharacter s
  · rw [hsplits.parse_eq]
    simp [hsplits]
  · obtain ⟨n, hn⟩ := exists_standsFor (withoutWord s.toList)
    rw [parse_of_not_splits hsplits hn, mapError_error_iff]
    simp only [checked_error_iff, Fault.refused.injEq, exists_eq_right, ne_eq, hn.number_eq_iff,
      hsplits, not_false_eq_true, true_and]
    refine and_congr_right fun _ => ⟨fun hreason => ⟨n, hn, hreason⟩, ?_⟩
    rintro ⟨k, hk, rfl⟩
    rw [hk.unique hn]

theorem parse_splitCharacter_iff {s : String} :
    parse s = .error .splitCharacter ↔ SplitsCharacter s := by
  constructor
  · intro h
    by_contra hsplits
    obtain ⟨n, hn⟩ := exists_standsFor (withoutWord s.toList)
    rw [parse_of_not_splits hsplits hn, mapError_error_iff] at h
    obtain ⟨reason, -, hfault⟩ := h
    cases hfault
  · exact fun h => h.parse_eq

theorem isNumeral_text (v : VlanId) : IsNumeral v.text.toList v.number := by
  have hdigits : v.text.toList = Nat.toDigits 10 v.number := by simp [text]
  rw [hdigits]
  exact Or.inl (Text.value?_ten.mp (Text.value?_toDigits (by decide) (by decide) v.number))

theorem parse_text (v : VlanId) : parse v.text = .ok v := by
  have hbare : withoutWord v.text.toList = v.text.toList :=
    if_neg fun hword => hword.not_isNumeral v.number v.isNumeral_text
  rw [parse_ok_iff, hbare]
  exact v.isNumeral_text

theorem parse_append_text {word : String} (h : IsLeadingWord word.toList) (v : VlanId) :
    parse (word ++ v.text) = .ok v := by
  rw [parse_ok_iff, String.toList_append, withoutWord_append h]
  exact v.isNumeral_text

/-- An id is read from a decimal number in the range of the ids, with or without a plus sign, bare
or behind the word in any case; so its own text is read back, bare or behind the word. Another text
is refused with the number of sixteen bits that it stands for, unless its fourth byte splits a
character: only then is there neither an id nor a refusal. -/
theorem parse_iff_isNumeral (s : String) :
    (∀ v, parse s = .ok v ↔ IsNumeral (withoutWord s.toList) v.number) ∧
      (∀ reason, parse s = .error (.refused reason) ↔
        ¬ SplitsCharacter s ∧ (∀ v : VlanId, ¬ IsNumeral (withoutWord s.toList) v.number) ∧
          ∃ n, StandsFor (withoutWord s.toList) n ∧ reason = .vlanId n) ∧
      (parse s = .error .splitCharacter ↔ SplitsCharacter s) ∧
      ∀ v : VlanId, parse v.text = .ok v ∧
        ∀ word : String, IsLeadingWord word.toList → parse (word ++ v.text) = .ok v :=
  ⟨fun _ => parse_ok_iff, fun _ => parse_refused_iff, parse_splitCharacter_iff,
    fun v => ⟨v.parse_text, fun _ hword => parse_append_text hword v⟩⟩

/-- The fourth byte of this text is the first of two that make one letter. -/
theorem parse_split_letter :
    parse "vlañ100" = .error .splitCharacter ∧
      ∀ reason, parse "vlañ100" ≠ .error (.refused reason) := by
  have hsplits : parse "vlañ100" = .error .splitCharacter := by decide
  refine ⟨hsplits, fun reason h => ?_⟩
  rw [hsplits] at h
  cases h

end ServiceChain.VlanId
