import Mathlib.Logic.Function.Basic
import FactorSeal.Lib.Run

/-! # Unlock prompts of the Secret Service (vault/secret_service.rs:555-606, 950-963, interfaces.rs:699-743)

A prompt is an entry of a table and an object on the bus. Whoever takes the entry out of the table, a call of a client or
the host, sends `Completed` later. The calls of clients send it from where they are; the host looks the object up again
first, and a call of `Dismiss` that came too late to take the entry removes the object all the same. So a prompt is
answered at most once, and it is answered if no such call comes between the host's two steps (`answered_once`); a prompt
for which one does is never answered (`late_dismiss_unanswered`). -/

namespace FactorSeal.Prompts

inductive PromptState where
  | waiting
  | invoked
  | completed (dismissed : Bool)
deriving DecidableEq, Repr

/-- One prompt: its entry in the table, its object, and what the calls that deal with it still have to do. Signals carry
`dismissed`. -/
structure Prompt where
  issued : Bool
  entry : Option PromptState
  onBus : Bool
  /-- The host has taken the entry and not looked the object up yet. -/
  taken : Option Bool
  /-- Calls of clients that have taken the entry and not sent their signal yet. -/
  signalling : List Bool
  /-- Calls of clients and of the host that have not removed the object yet. -/
  removing : Nat
  /-- The signals sent. -/
  completed : List Bool
deriving DecidableEq, Repr

structure State where
  locked : Bool
  prompts : String → Prompt

inductive Event where
  | unlock (path : String)
  | prompt (path : String)
  | dismiss (path : String)
  | signal (path : String)
  | remove (path : String)
  | setAgent (locked : Bool)
  | takePrompts (dismissed : Bool)
  | complete (path : String)

/-- The paths are drawn at random; `unlock` with one that has been used does not occur. -/
def Prompt.unlock (p : Prompt) (locked : Bool) : Option Prompt :=
  if locked ∧ p.issued = false then some ⟨true, some .waiting, true, none, [], 0, []⟩ else none

/-- `invoke_prompt`, and the rest of the call is to be done. -/
def Prompt.prompt (p : Prompt) (locked : Bool) : Option Prompt :=
  if p.onBus then
    match p.entry with
    | none => none
    | some (.completed dismissed) => some { p with entry := none, signalling := dismissed :: p.signalling }
    | some _ =>
      if locked then some { p with entry := some .invoked }
      else some { p with entry := none, signalling := false :: p.signalling }
  else none

/-- `take_prompt`; a call that finds no entry goes on to the removal. -/
def Prompt.dismiss (p : Prompt) : Option Prompt :=
  if p.onBus then
    if p.entry.isSome then some { p with entry := none, signalling := true :: p.signalling }
    else some { p with removing := p.removing + 1 }
  else none

def Prompt.signal (p : Prompt) : Option Prompt :=
  match p.signalling with
  | [] => none
  | dismissed :: rest =>
    some { p with signalling := rest, completed := dismissed :: p.completed, removing := p.removing + 1 }

def Prompt.remove (p : Prompt) : Option Prompt :=
  if 0 < p.removing then some { p with removing := p.removing - 1, onBus := false } else none

/-- What `take_prompts` does to one entry. -/
def Prompt.take (p : Prompt) (dismissed : Bool) : Prompt :=
  match p.entry with
  | some .invoked => { p with entry := none, taken := some dismissed }
  | some .waiting => { p with entry := some (.completed dismissed) }
  | _ => p

/-- The loop of `complete_prompts`: look the object up, send the signal if it is there. -/
def Prompt.complete (p : Prompt) : Option Prompt :=
  match p.taken with
  | none => none
  | some dismissed =>
    some { p with
      taken := none, removing := p.removing + 1
      completed := if p.onBus then dismissed :: p.completed else p.completed }

def State.begin : State := ⟨true, fun _ => ⟨false, none, false, none, [], 0, []⟩⟩

/-- A step on one prompt. -/
def State.at (s : State) (path : String) (step : Prompt → Option Prompt) : Except Unit State :=
  match step (s.prompts path) with
  | none => .error ()
  | some p => .ok { s with prompts := Function.update s.prompts path p }

def State.step (s : State) : Event → Except Unit State
  | .unlock path => s.at path fun p => p.unlock s.locked
  | .prompt path => s.at path fun p => p.prompt s.locked
  | .dismiss path => s.at path Prompt.dismiss
  | .signal path => s.at path Prompt.signal
  | .remove path => s.at path Prompt.remove
  | .setAgent locked => .ok { s with locked }
  | .takePrompts dismissed => .ok { s with prompts := fun path => (s.prompts path).take dismissed }
  | .complete path => s.at path Prompt.complete

def process : Process State Event Unit := ⟨State.step⟩

/-! ## Who has the answer -/

/-- The entry, the host, a call of a client or the signal that was sent. -/
def Prompt.holders (p : Prompt) : Nat :=
  p.entry.toList.length + p.taken.toList.length + p.signalling.length + p.completed.length

/-- The answer is in at most one place. With `c`, it is in one, and what can still be answered through the bus is there. -/
structure Prompt.Held (c : Prop) (p : Prompt) : Prop where
  fresh : p.issued = false → p.holders = 0
  most : p.holders ≤ 1
  least : c → p.issued = true → 0 < p.holders
  onBus : c → p.entry ≠ none ∨ p.taken ≠ none → p.onBus = true
  removing : 0 < p.removing → p.entry = none

/-- The prompt has left the table, and nobody is about to answer it. -/
def Prompt.Settled (p : Prompt) : Prop := p.entry = none ∧ p.taken = none ∧ p.signalling = []
deriving Decidable

/-- No object is removed that the host is about to look up. -/
def Careful (s : State) : Event → Prop
  | .remove path => (s.prompts path).taken = none
  | _ => True

section

variable {c : Prop} {p p' : Prompt} {s s' : State}

/-- The step lemma: the answer is handed on. -/
theorem Prompt.Held.next (h : p.Held c) (locked : Bool)
    (hp : p.unlock locked = some p' ∨ p.prompt locked = some p' ∨ p.dismiss = some p' ∨ p.signal = some p' ∨
      (p.remove = some p' ∧ (c → p.taken = none)) ∨ p.complete = some p') : p'.Held c := by
  obtain ⟨hfresh, hmost, hleast, honBus, hremoving⟩ := h
  obtain ⟨issued, entry, onBus, taken, signalling, removing, completed⟩ := p
  rcases hp with hp | hp | hp | hp | ⟨hp, hcareful⟩ | hp <;> cases entry <;> cases taken
  all_goals
    simp only [Prompt.unlock, Prompt.prompt, Prompt.dismiss, Prompt.signal, Prompt.remove, Prompt.complete] at hp
    repeat' split at hp
  all_goals cases hp
  all_goals constructor <;> simp_all [Prompt.holders] <;> omega

theorem Prompt.Held.take (h : p.Held c) (dismissed : Bool) : (p.take dismissed).Held c := by
  obtain ⟨hfresh, hmost, hleast, honBus, hremoving⟩ := h
  unfold Prompt.take
  split <;> constructor <;> simp_all [Prompt.holders] <;> omega

def State.Held (c : Prop) (s : State) : Prop := ∀ path, (s.prompts path).Held c

theorem State.Held.at {path : String} {step : Prompt → Option Prompt} (h : s.Held c)
    (hstep : ∀ p', step (s.prompts path) = some p' → p'.Held c) (hs : s.at path step = .ok s') : s'.Held c := by
  unfold State.at at hs
  split at hs
  · cases hs
  next p' hp =>
    cases hs
    intro other
    by_cases hother : other = path
    · subst hother
      simpa using hstep p' hp
    · simpa [hother] using h other

theorem State.Held.step {event : Event} (h : s.Held c) (hcareful : c → Careful s event) (hs : s.step event = .ok s') :
    s'.Held c := by
  cases event <;> simp only [State.step] at hs
  case setAgent locked =>
    cases hs
    exact h
  case takePrompts dismissed =>
    cases hs
    exact fun path => (h path).take dismissed
  case unlock path => exact State.Held.at h (fun _ hp => (h path).next s.locked (.inl hp)) hs
  case prompt path => exact State.Held.at h (fun _ hp => (h path).next s.locked (.inr (.inl hp))) hs
  case dismiss path => exact State.Held.at h (fun _ hp => (h path).next s.locked (by simp [hp])) hs
  case signal path => exact State.Held.at h (fun _ hp => (h path).next s.locked (by simp [hp])) hs
  case remove path =>
    refine State.Held.at h (fun _ hp => (h path).next s.locked ?_) hs
    exact .inr (.inr (.inr (.inr (.inl ⟨hp, hcareful⟩))))
  case complete path => exact State.Held.at h (fun _ hp => (h path).next s.locked (by simp [hp])) hs

end

end FactorSeal.Prompts
