/-! Ascending lists without repetition, which stand for finite sets whose order is shown. -/
namespace ServiceChain.Ordered

def without {α : Type} [DecidableEq α] (l removed : List α) : List α := l.filter (· ∉ removed)

@[simp] theorem mem_without {α : Type} [DecidableEq α] {x : α} {l removed : List α} :
    x ∈ without l removed ↔ x ∈ l ∧ x ∉ removed := by
  simp [without]

variable {α : Type} [DecidableEq α] [LT α] [DecidableLT α]

/-- Put an element in its place; one that is there already stays alone. -/
def insert (a : α) : List α → List α
  | [] => [a]
  | b :: rest =>
    if a = b then b :: rest
    else if a < b then a :: b :: rest
    else b :: insert a rest

@[simp] theorem mem_insert {x a : α} {l : List α} : x ∈ insert a l ↔ x = a ∨ x ∈ l := by
  induction l with
  | nil => simp [insert]
  | cons b rest ih =>
    simp only [insert]
    split
    · next h => subst h; simp
    · split
      · simp
      · simp only [List.mem_cons, ih]; constructor <;> (rintro (h | h | h) <;> simp [h])

def insertAll (as : List α) (l : List α) : List α := as.foldl (fun l a => insert a l) l

@[simp] theorem mem_insertAll {x : α} {as l : List α} : x ∈ insertAll as l ↔ x ∈ as ∨ x ∈ l := by
  induction as generalizing l with
  | nil => simp [insertAll]
  | cons a rest ih =>
    have : insertAll (a :: rest) l = insertAll rest (insert a l) := rfl
    rw [this, ih, mem_insert, List.mem_cons]
    exact or_left_comm.trans or_assoc.symm

def ofList (as : List α) : List α := insertAll as []

@[simp] theorem mem_ofList {x : α} {as : List α} : x ∈ ofList as ↔ x ∈ as := by
  simp [ofList]

end ServiceChain.Ordered
