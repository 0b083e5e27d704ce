import Mathlib.Data.Bool.AllAny
import Mathlib.Data.List.Forall2
import Mathlib.Data.Nat.Digits.Defs
import ServiceChain.Proofs.AddressTexts

/-! What digits, numbers, pieces and cuts of a text are, apart from how they are read. The value of
a digit is its place in a list of digits, that of a number the sum over its digits; the pieces of a
text are those that make the text when put together; and a text can be cut wherever a character
ends. -/
namespace ServiceChain.Text

def hexDigits : List Char := "0123456789abcdef".toList

def decimalDigits : List Char := "0123456789".toList

/-- A digit of base sixteen with this value; capital letters count as the small ones. -/
def IsHexDigit (c : Char) (value : Nat) : Prop := hexDigits.idxOf? c.toLower = some value

def IsDecimalDigit (c : Char) (value : Nat) : Prop := decimalDigits.idxOf? c = some value

/-- What holds of the first 128 characters and of those beyond holds of all. -/
theorem forall_char {holds : Char → Prop} (hascii : ∀ n : Fin 128, holds (Char.ofNat n))
    (hbeyond : ∀ c : Char, 128 ≤ c.toNat → holds c) (c : Char) : holds c := by
  rcases Nat.lt_or_ge c.toNat 128 with hlt | hge
  · have hc := hascii ⟨c.toNat, hlt⟩
    rwa [Char.ofNat_toNat] at hc
  · exact hbeyond c hge

theorem toLower_of_beyond {c : Char} (h : 128 ≤ c.toNat) : c.toLower = c := by
  have hnot : ¬ (c.val ≥ 'A'.val ∧ c.val ≤ 'Z'.val) := by
    rintro ⟨-, hle⟩
    have hle : c.toNat ≤ 90 := hle
    omega
  exact dif_neg hnot

theorem digit?_of_beyond {c : Char} (h : 128 ≤ c.toNat) : digit? c = none := by
  have hnot : ∀ last : Char, last.toNat < 128 → ¬ c ≤ last := by
    intro last hlast hle
    have hle : c.toNat ≤ last.toNat := hle
    omega
  have hnine : ¬ c ≤ '9' := hnot _ (by decide)
  have hf : ¬ c ≤ 'f' := hnot _ (by decide)
  have hF : ¬ c ≤ 'F' := hnot _ (by decide)
  simp [digit?, hnine, hf, hF]

theorem notMem_of_beyond {c : Char} (h : 128 ≤ c.toNat) {cs : List Char}
    (hascii : cs.all (·.toNat < 128)) : c ∉ cs := by
  intro hmem
  have hlt := List.all_iff_forall_prop.mp hascii c hmem
  omega

theorem digitIn?_sixteen : ∀ c, digitIn? 16 c = hexDigits.idxOf? c.toLower :=
  forall_char (by decide +kernel) fun c hc => by
    have hnot : c ∉ hexDigits := notMem_of_beyond hc (by decide)
    rw [digitIn?, digit?_of_beyond hc, toLower_of_beyond hc, List.idxOf?_eq_none_iff.mpr hnot]
    rfl

theorem digitIn?_ten : ∀ c, digitIn? 10 c = decimalDigits.idxOf? c :=
  forall_char (by decide +kernel) fun c hc => by
    have hnot : c ∉ decimalDigits := notMem_of_beyond hc (by decide)
    rw [digitIn?, digit?_of_beyond hc, List.idxOf?_eq_none_iff.mpr hnot]
    rfl

theorem digitIn?_sixteen_iff {c : Char} {d : Nat} : digitIn? 16 c = some d ↔ IsHexDigit c d := by
  rw [digitIn?_sixteen, IsHexDigit]

theorem digitIn?_ten_iff {c : Char} {d : Nat} : digitIn? 10 c = some d ↔ IsDecimalDigit c d := by
  rw [digitIn?_ten, IsDecimalDigit]

theorem IsHexDigit.lt {c : Char} {d : Nat} (h : IsHexDigit c d) : d < 16 := by
  obtain ⟨-, hlt⟩ := Option.filter_eq_some_iff.mp (digitIn?_sixteen_iff.mpr h)
  simpa using hlt

theorem IsHexDigit.isSome_digit? {c : Char} {d : Nat} (h : IsHexDigit c d) :
    (digit? c).isSome := by
  obtain ⟨hdigit, -⟩ := Option.filter_eq_some_iff.mp (digitIn?_sixteen_iff.mpr h)
  rw [hdigit]
  rfl

theorem IsDecimalDigit.mem {c : Char} {d : Nat} (h : IsDecimalDigit c d) : c ∈ decimalDigits := by
  by_contra hnot
  rw [IsDecimalDigit, List.idxOf?_eq_none_iff.mpr hnot] at h
  cases h

/-- Digits of base ten with this value, the first counting most. -/
def IsDecimal (cs : List Char) (n : Nat) : Prop :=
  cs ≠ [] ∧ ∃ ds, List.Forall₂ IsDecimalDigit cs ds ∧ n = Nat.ofDigits 10 ds.reverse

/-- A decimal number, with or without a plus sign before it. -/
def IsNumeral (cs : List Char) (n : Nat) : Prop :=
  IsDecimal cs n ∨ ∃ rest, cs = '+' :: rest ∧ IsDecimal rest n

theorem ofDigits_reverse_cons (d : Nat) (ds : List Nat) :
    Nat.ofDigits 10 (d :: ds).reverse = Nat.ofDigits 10 ds.reverse + 10 ^ ds.length * d := by
  rw [List.reverse_cons, Nat.ofDigits_append, Nat.ofDigits_singleton, List.length_reverse]

theorem valueFrom?_ten {acc n : Nat} {cs : List Char} :
    valueFrom? 10 acc cs = some n ↔ ∃ ds, List.Forall₂ IsDecimalDigit cs ds ∧
      n = Nat.ofDigits 10 ds.reverse + 10 ^ ds.length * acc := by
  induction cs generalizing acc with
  | nil => simp [valueFrom?, eq_comm]
  | cons c rest ih =>
    -- the digit in front has gone into the accumulator, ten times the old one
    have hshift : ∀ d ds, Nat.ofDigits 10 ds.reverse + 10 ^ ds.length * (acc * 10 + d) =
        Nat.ofDigits 10 (d :: ds).reverse + 10 ^ (d :: ds).length * acc := by
      intro d ds
      rw [ofDigits_reverse_cons, List.length_cons]
      ring
    simp only [valueFrom?]
    constructor
    · intro h
      cases hc : digitIn? 10 c with
      | none => simp [hc] at h
      | some d =>
        simp only [hc] at h
        obtain ⟨ds, hds, rfl⟩ := ih.mp h
        exact ⟨d :: ds, .cons (digitIn?_ten_iff.mp hc) hds, hshift d ds⟩
    · rintro ⟨_, hds, rfl⟩
      cases hds with
      | cons hc hds =>
        rw [digitIn?_ten_iff.mpr hc]
        exact ih.mpr ⟨_, hds, (hshift _ _).symm⟩

theorem value?_ten {cs : List Char} {n : Nat} : value? 10 cs = some n ↔ IsDecimal cs n := by
  cases cs with
  | nil => simp [value?, IsDecimal]
  | cons c rest => simp [value?, IsDecimal, valueFrom?_ten]

theorem not_isDecimal_plus {cs : List Char} {n : Nat} : ¬ IsDecimal ('+' :: cs) n := by
  rintro ⟨-, ds, hds, -⟩
  cases hds with
  | cons hplus _ => exact absurd hplus.mem (by decide)

theorem signedDecimal?_iff {cs : List Char} {n : Nat} :
    signedDecimal? cs = some n ↔ IsNumeral cs n := by
  simp only [IsNumeral, signedDecimal?]
  split
  · next rest => simp [value?_ten, not_isDecimal_plus]
  · next hplus =>
    rw [value?_ten]
    constructor
    · exact Or.inl
    · rintro (h | ⟨rest, rfl, -⟩)
      · exact h
      · exact absurd rfl (hplus rest)

theorem IsNumeral.unique {cs : List Char} {m n : Nat} (hm : IsNumeral cs m) (hn : IsNumeral cs n) :
    m = n :=
  Option.some.inj ((signedDecimal?_iff.mpr hm).symm.trans (signedDecimal?_iff.mpr hn))

theorem exists_of_forall₂ {α β : Type} {R : α → β → Prop} {xs : List α} {ys : List β}
    (h : List.Forall₂ R xs ys) : ∀ x ∈ xs, ∃ y, R x y := by
  induction h with
  | nil => simp
  | cons hfirst _ ih =>
    intro x hx
    rcases List.mem_cons.mp hx with rfl | hrest
    · exact ⟨_, hfirst⟩
    · exact ih x hrest

theorem IsDecimal.ascii {cs : List Char} {n : Nat} (h : IsDecimal cs n) :
    ∀ c ∈ cs, c.toNat < 128 := by
  obtain ⟨-, ds, hds, -⟩ := h
  have hdigits : ∀ d ∈ decimalDigits, d.toNat < 128 := List.all_iff_forall_prop.mp (by decide)
  intro c hc
  obtain ⟨d, hd⟩ := exists_of_forall₂ hds c hc
  exact hdigits c hd.mem

theorem IsNumeral.ascii {cs : List Char} {n : Nat} (h : IsNumeral cs n) :
    ∀ c ∈ cs, c.toNat < 128 := by
  rcases h with hdigits | ⟨rest, rfl, hdigits⟩
  · exact hdigits.ascii
  · intro c hc
    rcases List.mem_cons.mp hc with rfl | hrest
    · decide
    · exact hdigits.ascii c hrest

theorem intercalate_fields (sep : Char) (cs : List Char) :
    [sep].intercalate (fields sep cs) = cs := by
  induction cs with
  | nil => rfl
  | cons c rest ih =>
    cases hfields : fields sep rest with
    | nil => exact absurd hfields (fields_ne_nil sep rest)
    | cons piece more =>
      rw [hfields] at ih
      simp only [fields, hfields]
      split
      · next hc =>
        rw [List.intercalate_cons_cons, ih, hc]
        rfl
      · cases more with
        | nil => simpa using ih
        | cons next others =>
          rw [List.intercalate_cons_cons] at ih ⊢
          simpa using ih

theorem mem_intercalate_iff {sep c : Char} (hc : c ≠ sep) {pieces : List (List Char)} :
    c ∈ [sep].intercalate pieces ↔ ∃ piece ∈ pieces, c ∈ piece := by
  induction pieces with
  | nil => simp
  | cons piece more ih =>
    cases more with
    | nil => simp
    | cons next others =>
      rw [List.intercalate_cons_cons, List.mem_append, List.mem_append, ih, List.mem_singleton]
      simp only [List.mem_cons, exists_eq_or_imp, hc, or_false]

theorem byteLength_eq (cs : List Char) : byteLength cs = (String.ofList cs).utf8ByteSize := by
  induction cs with
  | nil => rfl
  | cons c rest ih =>
    have hsplit : String.ofList (c :: rest) = String.ofList [c] ++ String.ofList rest :=
      @String.ofList_append [c] rest
    rw [byteLength, hsplit, String.utf8ByteSize_append, ih]
    simp

theorem length_le_byteLength (cs : List Char) : cs.length ≤ byteLength cs := by
  induction cs with
  | nil => simp
  | cons c rest ih =>
    have hpos := c.utf8Size_pos
    rw [List.length_cons, byteLength]
    omega

theorem byteLength_of_ascii {cs : List Char} (h : ∀ c ∈ cs, c.toNat < 128) :
    byteLength cs = cs.length := by
  induction cs with
  | nil => rfl
  | cons c rest ih =>
    have hc : c.toNat < 128 := h c (List.mem_cons_self ..)
    have hone : c.utf8Size = 1 := Char.utf8Size_eq_one_iff.mpr (Nat.le_of_lt_succ hc)
    rw [byteLength, hone, ih fun other hother => h other (List.mem_cons_of_mem _ hother),
      List.length_cons, Nat.add_comm]

theorem cutBytes?_append (head rest : List Char) :
    cutBytes? (byteLength head) (head ++ rest) = some (head, rest) := by
  induction head with
  | nil => simp [byteLength, cutBytes?]
  | cons c more ih =>
    have hpos := c.utf8Size_pos
    obtain ⟨n, hn⟩ : ∃ n, byteLength (c :: more) = n + 1 :=
      Nat.exists_eq_succ_of_ne_zero (by rw [byteLength]; omega)
    have hsize : c.utf8Size ≤ n + 1 := by
      rw [← hn, byteLength]
      omega
    have hleft : n + 1 - c.utf8Size = byteLength more := by
      rw [← hn, byteLength]
      omega
    rw [hn, List.cons_append, cutBytes?, if_pos hsize, hleft, ih]
    rfl

theorem of_cutBytes? {n : Nat} {cs head rest : List Char} (h : cutBytes? n cs = some (head, rest)) :
    cs = head ++ rest ∧ byteLength head = n := by
  fun_induction cutBytes? n cs generalizing head with
  | case1 cs =>
    cases h
    exact ⟨rfl, rfl⟩
  | case2 n => cases h
  | case3 n c more hsize ih =>
    obtain ⟨⟨before, after⟩, hcut, heq⟩ := Option.map_eq_some_iff.mp h
    obtain ⟨rfl, rfl⟩ := Prod.mk.inj heq
    obtain ⟨rfl, hlength⟩ := ih hcut
    refine ⟨rfl, ?_⟩
    rw [byteLength, hlength]
    omega
  | case4 n c more hsize => cases h

theorem cutBytes?_iff {n : Nat} {cs head rest : List Char} :
    cutBytes? n cs = some (head, rest) ↔ cs = head ++ rest ∧ byteLength head = n := by
  constructor
  · exact of_cutBytes?
  · rintro ⟨rfl, rfl⟩
    exact cutBytes?_append head rest

/-- A text can be cut after so many bytes if this is a place between two of its characters. -/
theorem isSome_cutBytes?_iff {n : Nat} {s : String} :
    (cutBytes? n s.toList).isSome ↔ String.Pos.Raw.IsValid s ⟨n⟩ := by
  rw [String.Pos.Raw.isValid_iff_exists_append, Option.isSome_iff_exists]
  constructor
  · rintro ⟨⟨head, rest⟩, hcut⟩
    obtain ⟨hcs, rfl⟩ := cutBytes?_iff.mp hcut
    refine ⟨String.ofList head, String.ofList rest, ?_, ?_⟩
    · rw [← String.ofList_append, ← hcs, String.ofList_toList]
    · rw [byteLength_eq]
      rfl
  · rintro ⟨before, after, rfl, hlength⟩
    refine ⟨(before.toList, after.toList), cutBytes?_iff.mpr ⟨String.toList_append, ?_⟩⟩
    rw [byteLength_eq, String.ofList_toList]
    exact (congrArg String.Pos.Raw.byteIdx hlength).symm

theorem cutBytes?_of_ascii {n : Nat} {cs : List Char} (h : ∀ c ∈ cs.take n, c.toNat < 128)
    (hlength : n ≤ cs.length) : cutBytes? n cs = some (cs.take n, cs.drop n) := by
  refine cutBytes?_iff.mpr ⟨(List.take_append_drop n cs).symm, ?_⟩
  rw [byteLength_of_ascii h, List.length_take, Nat.min_eq_left hlength]

end ServiceChain.Text
