import Mathlib.Logic.Function.Basic

/-! # Trails of changes to keyed values

A log in which every entry names the value it found and the value it left under its key. `Leads s links t` says that the
links take the values `s` to the values `t`, each finding what is there. Then a link finds what the link before it under
its key has left (`Leads.consecutive`), the last link under a key has left what is there (`Leads.newest`), and this stays
so when the log is cut off at its beginning (`leads_append`). -/

structure Link (κ ν : Type) where
  key : κ
  before : Option ν
  after : Option ν

namespace Link

variable {κ ν : Type} [DecidableEq κ] {s t : κ → Option ν} {links : List (Link κ ν)}

def Leads : (κ → Option ν) → List (Link κ ν) → (κ → Option ν) → Prop
  | s, [], t => s = t
  | s, l :: links, t => l.before = s l.key ∧ Leads (Function.update s l.key l.after) links t

theorem leads_append {more : List (Link κ ν)} :
    Leads s (links ++ more) t ↔ ∃ m, Leads s links m ∧ Leads m more t := by
  induction links generalizing s with
  | nil => simp [Leads]
  | cons l links ih =>
    simp only [List.cons_append, Leads, ih]
    constructor
    · rintro ⟨hbefore, m, hlinks, hmore⟩
      exact ⟨m, ⟨hbefore, hlinks⟩, hmore⟩
    · rintro ⟨m, ⟨hbefore, hlinks⟩, hmore⟩
      exact ⟨hbefore, m, hlinks, hmore⟩

/-- What no link is about stays as it is. -/
theorem Leads.kept (h : Leads s links t) {key : κ} (hkey : ∀ l ∈ links, l.key ≠ key) : t key = s key := by
  induction links generalizing s with
  | nil => rw [← h]
  | cons l links ih =>
    rw [ih h.2 fun l' hl' => hkey l' (List.mem_cons_of_mem _ hl'),
      Function.update_of_ne (Ne.symm (hkey l List.mem_cons_self))]

/-- The last link under a key has left what is there. -/
theorem Leads.newest {l : Link κ ν} {earlier later : List (Link κ ν)} (h : Leads s (earlier ++ l :: later) t)
    (hlater : ∀ l' ∈ later, l'.key ≠ l.key) : t l.key = l.after := by
  obtain ⟨m, -, -, hrest⟩ := leads_append.1 h
  rw [hrest.kept hlater, Function.update_self]

/-- A link finds what the one before it under its key has left. -/
theorem Leads.consecutive {l l' : Link κ ν} {earlier between later : List (Link κ ν)}
    (h : Leads s (earlier ++ l :: (between ++ l' :: later)) t) (hkey : l'.key = l.key)
    (hbetween : ∀ x ∈ between, x.key ≠ l.key) : l'.before = l.after := by
  obtain ⟨m, -, -, hrest⟩ := leads_append.1 h
  obtain ⟨m', hmid, hbefore, -⟩ := leads_append.1 hrest
  rw [hbefore, hkey, hmid.kept hbetween, Function.update_self]

end Link
