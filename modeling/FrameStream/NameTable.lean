/-!
# Tables in the order of their names

A table holds each name once, in ascending order. Inserting under a name that is there replaces what it
stood for.
-/

namespace FrameStream

/-- Things under names, in the order of the names. -/
abbrev NameTable (α : Type) := List (String × α)

namespace NameTable

def insert {α : Type} (name : String) (a : α) : NameTable α → NameTable α
  | [] => [(name, a)]
  | (n, b) :: rest =>
    if name < n then (name, a) :: (n, b) :: rest
    else if name = n then (name, a) :: rest
    else (n, b) :: insert name a rest

def get? {α : Type} (name : String) : NameTable α → Option α
  | [] => none
  | (n, a) :: rest => if n = name then some a else get? name rest

def erase {α : Type} (name : String) (t : NameTable α) : NameTable α := t.filter (·.1 ≠ name)

def names {α : Type} (t : NameTable α) : List String := t.map (·.1)

@[simp] theorem get?_insert_self {α : Type} (name : String) (a : α) (t : NameTable α) :
    get? name (insert name a t) = some a := by
  induction t with
  | nil => simp [insert, get?]
  | cons e rest ih =>
    obtain ⟨n, b⟩ := e
    by_cases hlt : name < n
    · simp [insert, get?, hlt]
    · by_cases heq : name = n
      · simp [insert, get?, heq]
      · have hne : n ≠ name := fun h => heq h.symm
        simp [insert, get?, hlt, heq, hne, ih]

theorem get?_insert_of_ne {α : Type} {name other : String} (h : other ≠ name) (a : α) (t : NameTable α) :
    get? other (insert name a t) = get? other t := by
  induction t with
  | nil => simp [insert, get?, h.symm]
  | cons e rest ih =>
    obtain ⟨n, b⟩ := e
    by_cases hlt : name < n
    · simp [insert, get?, hlt, h.symm]
    · by_cases heq : name = n
      · subst heq
        simp [insert, get?, h.symm]
      · simp [insert, get?, hlt, heq, ih]

@[simp] theorem get?_erase_self {α : Type} (name : String) (t : NameTable α) : get? name (erase name t) = none := by
  induction t with
  | nil => rfl
  | cons e rest ih =>
    by_cases heq : e.1 = name
    · simpa [erase, heq] using ih
    · simpa [erase, heq, get?] using ih

theorem get?_erase_of_ne {α : Type} {name other : String} (h : other ≠ name) (t : NameTable α) :
    get? other (erase name t) = get? other t := by
  induction t with
  | nil => rfl
  | cons e rest ih =>
    obtain ⟨n, a⟩ := e
    by_cases heq : n = name
    · subst heq
      simpa [erase, get?, h.symm] using ih
    · have hkept : erase name ((n, a) :: rest) = (n, a) :: erase name rest := by simp [erase, heq]
      rw [hkept, get?, get?, ih]

end NameTable
end FrameStream
