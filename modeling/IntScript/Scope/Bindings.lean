/-!
Names bound to values. A name has at most one value, the one it was given last.
-/

namespace IntScript

/-- Names and their values, the latest first. -/
abbrev Bindings (α : Type) := List (String × α)

namespace Bindings

variable {α : Type}

def find? (b : Bindings α) (name : String) : Option α := b.lookup name

/-- Gives a name a value, in place of any it had. -/
def insert (b : Bindings α) (name : String) (value : α) : Bindings α :=
  (name, value) :: b.filter (·.1 != name)

@[simp] theorem find?_nil (name : String) : find? ([] : Bindings α) name = none := rfl

theorem find?_cons_ne (b : Bindings α) {key name : String} (value : α) (h : name ≠ key) :
    find? ((key, value) :: b) name = b.find? name := by
  have hne : (name == key) = false := by simpa using h
  simp [find?, List.lookup_cons, hne]

theorem find?_filter_ne (b : Bindings α) {name other : String} (h : other ≠ name) :
    find? (b.filter (·.1 != name)) other = b.find? other := by
  induction b with
  | nil => rfl
  | cons p b ih =>
    obtain ⟨key, value⟩ := p
    by_cases hkey : key = name
    · subst hkey
      rw [find?_cons_ne b value h, ← ih]
      simp
    · have hkeep : ((key, value) :: b).filter (·.1 != name) =
          (key, value) :: b.filter (·.1 != name) := by simp [hkey]
      rw [hkeep]
      by_cases hother : other = key
      · simp [find?, hother]
      · rw [find?_cons_ne _ value hother, find?_cons_ne _ value hother, ih]

theorem find?_insert (b : Bindings α) (name other : String) (value : α) :
    (b.insert name value).find? other = if other = name then some value else b.find? other := by
  by_cases h : other = name
  · simp [insert, find?, h]
  · rw [if_neg h, insert, find?_cons_ne _ value h, find?_filter_ne b h]

end Bindings

end IntScript
