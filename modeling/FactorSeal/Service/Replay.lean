import FactorSeal.Lib.Run
import FactorSeal.Service.Frame
import FactorSeal.Service.Reference
import Mathlib.Data.List.DropRight

/-! # Replayed requests (protocol/lease.rs:107-131, protocol/service.rs:213-234)

The service remembers the identifiers of the last 4096 requests it let in, as a set and as a queue (`ReplayTable`). The
set holds what the queue holds (`ReplayTable.Agrees`), so that the queue alone, which is what the live state has, answers
alike. A request is checked against it before anything else is done for it (`VaultService.admission`), and nothing but
this check changes it. -/

namespace FactorSeal

open Wire Except ServiceM Service List Reference ReplayWindow

variable {id : RequestId} {live : LiveState} {s : Service} {monotonicNow : Instant} {policy : UnsealLeasePolicy}

/-! ## The set and the queue -/

/-- `ReplayWindow` as the source has it. -/
structure ReplayTable where
  set : Finset RequestId
  order : List RequestId

namespace ReplayTable

def new : ReplayTable := ⟨∅, []⟩

/-- `consume` (lease.rs:120-131). -/
def consume (table : ReplayTable) (id : RequestId) : VaultResult ReplayTable :=
  if id ∈ table.set then .error .replay
  else
    let set := insert id table.set
    let order := table.order ++ [id]
    if maxReplayIds < order.length then
      match order with
      | [] => .ok ⟨set, []⟩
      | expired :: order => .ok ⟨set.erase expired, order⟩
    else .ok ⟨set, order⟩

/-- Both hold the same identifiers, each of them once. -/
structure Agrees (table : ReplayTable) (window : ReplayWindow) : Prop where
  order : table.order = window.order
  set : table.set = window.order.toFinset
  nodup : window.order.Nodup

theorem agrees_new : Agrees new ⟨[]⟩ := ⟨rfl, rfl, nodup_nil⟩

end ReplayTable

namespace ReplayWindow

variable {window : ReplayWindow}

theorem consume_of_mem (h : id ∈ window.order) : window.consume id = .error .replay := by
  rw [consume, ensure_of_not (by simpa using h), error_bind]

theorem consume_of_notMem (h : id ∉ window.order) :
    window.consume id =
      .ok ⟨if maxReplayIds < (window.order ++ [id]).length then (window.order ++ [id]).tail else window.order ++ [id]⟩ := by
  rw [consume, ensure_of (by simpa using h), ok_bind]
  rfl

theorem consume_eq_replay : window.consume id = .error .replay ↔ id ∈ window.order := by
  by_cases h : id ∈ window.order
  · exact iff_of_true (consume_of_mem h) h
  · refine iff_of_false ?_ h
    rw [consume_of_notMem h]
    nofun

end ReplayWindow

namespace ReplayTable

variable {table : ReplayTable} {window : ReplayWindow}

/-- The set and the queue refuse the same identifiers and stay in agreement. -/
theorem Agrees.consume (h : table.Agrees window) (id : RequestId) :
    (table.consume id = .error .replay ∧ window.consume id = .error .replay) ∨
      ∃ table' window', table.consume id = .ok table' ∧ window.consume id = .ok window' ∧ table'.Agrees window' := by
  by_cases hmem : id ∈ window.order
  · have hset : id ∈ table.set := by
      rw [h.set]
      exact mem_toFinset.2 hmem
    exact .inl ⟨if_pos hset, consume_of_mem hmem⟩
  · have hset : id ∉ table.set := by
      rw [h.set]
      exact fun hin => hmem (mem_toFinset.1 hin)
    have hnodup : (window.order ++ [id]).Nodup := by
      rw [nodup_append_comm, singleton_append, nodup_cons]
      exact ⟨hmem, h.nodup⟩
    have hinsert : insert id table.set = (window.order ++ [id]).toFinset := by
      rw [h.set]
      ext other
      simp [or_comm]
    right
    rw [consume_of_notMem hmem, ReplayTable.consume, if_neg hset, h.order, hinsert]
    generalize window.order ++ [id] = order at hnodup
    dsimp only
    split
    · cases order with
      | nil => exact ⟨_, _, rfl, rfl, rfl, rfl, nodup_nil⟩
      | cons expired order =>
        obtain ⟨hexpired, hrest⟩ := nodup_cons.1 hnodup
        refine ⟨_, _, rfl, rfl, rfl, ?_, hrest⟩
        show (expired :: order).toFinset.erase expired = order.toFinset
        rw [toFinset_cons, Finset.erase_insert fun hin => hexpired (mem_toFinset.1 hin)]
    · exact ⟨_, _, rfl, rfl, rfl, rfl, hnodup⟩

end ReplayTable

/-! ## The last identifiers -/

/-- The queue holds the last identifiers of a list. -/
def ReplayWindow.Holds (window : ReplayWindow) (accepted : List RequestId) : Prop :=
  window.order = accepted.rtake maxReplayIds

theorem ReplayWindow.holds_nil : Holds ⟨[]⟩ [] := (rtake_nil _).symm

/-- Dropping the oldest of too many is keeping the last. -/
theorem rtake_concat {α : Type} (n : Nat) (l : List α) (a : α) :
    (l ++ [a]).rtake (n + 1) =
      if n + 1 < (l.rtake (n + 1) ++ [a]).length then (l.rtake (n + 1) ++ [a]).tail else l.rtake (n + 1) ++ [a] := by
  rw [rtake_concat_succ]
  unfold rtake
  rw [length_append, length_drop, length_singleton]
  by_cases h : l.length ≤ n
  · rw [if_neg (by omega), show l.length - n = 0 by omega, show l.length - (n + 1) = 0 by omega]
  · have hne : l.drop (l.length - (n + 1)) ≠ [] := by
      rw [ne_eq, drop_eq_nil_iff]
      omega
    rw [if_pos (by omega), tail_append_of_ne_nil hne, tail_drop,
      show l.length - (n + 1) + 1 = l.length - n by omega]

namespace ReplayWindow

variable {window window' : ReplayWindow} {accepted : List RequestId}

theorem Holds.consume (h : window.Holds accepted) (hconsume : window.consume id = .ok window') :
    window'.Holds (accepted ++ [id]) := by
  have hmem : id ∉ window.order := fun hmem => by
    rw [consume_of_mem hmem] at hconsume
    cases hconsume
  obtain ⟨n, hn⟩ : ∃ n, maxReplayIds = n + 1 := ⟨4095, rfl⟩
  rw [consume_of_notMem hmem, h, hn] at hconsume
  cases hconsume
  rw [Holds, hn]
  exact (rtake_concat n accepted id).symm

theorem Holds.consume_eq_replay (h : window.Holds accepted) :
    window.consume id = .error .replay ↔ id ∈ accepted.rtake maxReplayIds := by
  rw [ReplayWindow.consume_eq_replay, h]

end ReplayWindow

/-- The window over a sequence of identifiers. -/
def ReplayTable.process : Process ReplayTable RequestId VaultError := ⟨ReplayTable.consume⟩

/-- Over any sequence, the set and the queue agree with the last identifiers that were accepted. -/
theorem ReplayTable.exists_agrees (ids : List RequestId) :
    ∃ window, (process.run new ids).Agrees window ∧ window.Holds (process.accepted new ids) := by
  induction ids using reverseRecOn with
  | nil => exact ⟨⟨[]⟩, agrees_new, holds_nil⟩
  | append_singleton ids id ih =>
    obtain ⟨window, hagrees, hholds⟩ := ih
    rw [Process.run_concat, Process.accepted_concat]
    rcases hagrees.consume id with ⟨htable, -⟩ | ⟨table', window', htable, hwindow, hagrees'⟩
    · rw [Process.next_of_error htable, Process.acceptedOne_of_error htable, append_nil]
      exact ⟨window, hagrees, hholds⟩
    · rw [Process.next_of_ok htable, Process.acceptedOne_of_ok htable]
      exact ⟨window', hagrees', hholds.consume hwindow⟩

/-! ## The admission of a request -/

section

open ServiceM

variable {live' : LiveState} {now : Instant}

theorem ServiceM.bind_of_ok {α β : Type} {x : ServiceM α} {f : α → ServiceM β} {a : α}
    (h : x live = pure (.ok a, live')) : (x >>= f) live = f a live' := by
  show (x live >>= _) = _
  rw [h]
  rfl

theorem ServiceM.bind_of_error {α β : Type} {x : ServiceM α} {f : α → ServiceM β} {failure : RequestFailure}
    (h : x live = pure (.error failure, live')) : (x >>= f) live = pure (.error failure, live') := by
  show (x live >>= _) = _
  rw [h]
  rfl

theorem lockLive_of_live (hsealed : live.isSealed = false) (hlease : live.lease.isExpired now = false) :
    lockLive now live = pure (.ok (), live) := by
  simp [lockLive, update, hsealed, hlease, Except.mapError]

theorem lockLive_of_over (h : ¬ (live.isSealed = false ∧ live.lease.isExpired now = false)) :
    lockLive now live = pure (.error (failure .sealed), { live with isSealed := true }) := by
  unfold lockLive update
  dsimp only
  split
  next hsealed =>
    rw [show ({ live with isSealed := true } : LiveState) = live by rw [← hsealed]]
    rfl
  next hsealed =>
    rw [if_pos (by simpa [hsealed] using h)]
    rfl

theorem consumeRequest_of_ok {window : ReplayWindow} (h : live.replay.consume id = .ok window) :
    consumeRequest id live = pure (.ok (), { live with replay := window }) := by
  simp [consumeRequest, update, h, Except.mapError]

theorem consumeRequest_of_error {e : VaultError} (h : live.replay.consume id = .error e) :
    consumeRequest id live = pure (.error (failure e), live) := by
  simp [consumeRequest, update, h, Except.mapError]

end

namespace VaultService

variable (env : ServiceEnv) (caller : CallerIdentity) (context : RequestContext) (request : VaultRequest)
  {e : VaultError}

/-- What `handle_inner` checks before it looks at the action: the window it leaves. -/
def admission (live : LiveState) : VaultResult ReplayWindow := do
  caller.validate
  request.validate env.requestSize
  ensure (live.isSealed = false ∧ live.lease.isExpired (context.clock 0).2 = false) .sealed
  live.replay.consume request.requestId

variable {env caller context request} {device : Device}

theorem handleInner_of_admitted {window : ReplayWindow} (h : admission env caller context request live = .ok window) :
    handleInner env device caller context request live =
      dispatch env device caller context request.action request.application { live with replay := window } := by
  simp only [admission, bind_eq_ok, ensure_eq_ok] at h
  obtain ⟨⟨⟩, hcaller, ⟨⟩, hrequest, ⟨⟩, ⟨hsealed, hlease⟩, hconsume⟩ := h
  unfold handleInner
  rw [hcaller, hrequest, bind_of_ok rfl, bind_of_ok rfl,
    bind_of_ok (lockLive_of_live hsealed hlease), bind_of_ok (consumeRequest_of_ok hconsume)]

/-- **A request that is not let in runs nothing on the store**, and leaves the live state; only an expired lease seals. -/
theorem handleInner_of_refused (device : Device) (h : admission env caller context request live = .error e) :
    ∃ isSealed, handleInner env device caller context request live =
        pure (.error (failure e), { live with isSealed }) ∧ (e ≠ .sealed → isSealed = live.isSealed) := by
  unfold admission at h
  unfold handleInner
  cases hcaller : caller.validate with
  | error e' =>
    rw [hcaller] at h
    cases h
    exact ⟨live.isSealed, bind_of_error rfl, fun _ => rfl⟩
  | ok u =>
    rw [hcaller, ok_bind] at h
    rw [bind_of_ok rfl]
    cases hrequest : request.validate env.requestSize with
    | error e' =>
      rw [hrequest] at h
      cases h
      exact ⟨live.isSealed, bind_of_error rfl, fun _ => rfl⟩
    | ok u =>
      rw [hrequest, ok_bind] at h
      rw [bind_of_ok rfl]
      by_cases hlive : live.isSealed = false ∧ live.lease.isExpired (context.clock 0).2 = false
      · rw [ensure_of hlive, ok_bind] at h
        rw [bind_of_ok (lockLive_of_live hlive.1 hlive.2)]
        exact ⟨live.isSealed, bind_of_error (consumeRequest_of_error h), fun _ => rfl⟩
      · rw [ensure_of_not hlive] at h
        cases h
        exact ⟨true, bind_of_error (lockLive_of_over hlive), fun hne => absurd rfl hne⟩

/-- **A request that is not let in is answered with an error, runs nothing on the store and leaves everything but the
seal.** -/
theorem handle_of_refused (device : Device) (h : admission env caller context request live = .error e) :
    ∃ response isSealed, handle env device caller context request live = pure (.error response, { live with isSealed }) ∧
      (live.isSealed = false → live.lease.isExpired (context.clock 7).2 = false → e ≠ .sealed →
        response = responseError (failure e) ∧ isSealed = false) := by
  obtain ⟨isSealed, hinner, hkept⟩ := handleInner_of_refused device h
  have hhandle : handle env device caller context request live =
      if isSealed = true ∨ live.lease.isExpired (context.clock 7).2 = true then
        pure (.error (responseError (failure .sealed)), { live with isSealed := true })
      else pure (.error (responseError (failure e)), { live with isSealed }) := by
    rw [handle, hinner]
    rfl
  rw [hhandle]
  split
  next hover =>
    refine ⟨_, true, rfl, fun hsealed hlease hne => ?_⟩
    rw [hkept hne, hsealed, hlease] at hover
    simp at hover
  next => exact ⟨_, isSealed, rfl, fun hsealed _ hne => ⟨rfl, (hkept hne).trans hsealed⟩⟩

/-- The window a request leaves. -/
def window (env : ServiceEnv) (caller : CallerIdentity) (context : RequestContext) (request : VaultRequest)
    (live : LiveState) : ReplayWindow :=
  match admission env caller context request live with
  | .ok window => window
  | .error _ => live.replay

/-- What a request leaves, with what it returns. -/
def Leaves (env : ServiceEnv) (caller : CallerIdentity) (context : RequestContext) (request : VaultRequest)
    (live : LiveState) (result : Except RequestFailure (VaultResponseBody × Option UInt64)) (live' : LiveState) : Prop :=
  Touched (Set.range context.clock) { live with replay := window env caller context request live } live' ∧
    (Refused result → live'.lease = live.lease)

theorem returns_handleInner : (handleInner env device caller context request live).Returns NoRefusal fun r =>
    Leaves env caller context request live r.1 r.2 := by
  unfold Leaves
  cases h : admission env caller context request live with
  | ok admitted =>
    rw [handleInner_of_admitted h, window, h]
    exact touching_dispatch _
  | error e =>
    obtain ⟨isSealed, hinner, -⟩ := handleInner_of_refused device h
    rw [hinner, window, h]
    exact .pure ⟨⟨.inl rfl, rfl⟩, fun _ => rfl⟩

theorem isRefusal_of_responseCode (h : responseCode e = .authorizationRequired) : e.isRefusal = true := by
  cases e <;> first | rfl | cases h

/-- The end of `handle_at` adds the seal to what the request leaves, and answers a refusal as one. -/
theorem returns_handle_of {Q : Except RequestFailure (VaultResponseBody × Option UInt64) → LiveState → Prop}
    (hinner : (handleInner env device caller context request live).Returns NoRefusal fun r => Q r.1 r.2) :
    (handle env device caller context request live).Returns NoRefusal fun r => ∃ result live' isSealed,
      Q result live' ∧ r.2 = { live' with isSealed } ∧
        ∀ response, r.1 = .error response → response.code = .authorizationRequired → Refused result := by
  refine hinner.bind fun r hr => ?_
  obtain ⟨result, live'⟩ := r
  dsimp only
  split
  · exact .pure ⟨_, live', true, hr, rfl, fun _ h => by cases h⟩
  · split
    · exact .pure ⟨_, live', true, hr, rfl, fun _ h hcode => by cases h; cases hcode⟩
    split
    · exact .pure ⟨_, live', live'.isSealed, hr, rfl, fun _ h => by cases h⟩
    · exact .pure ⟨_, live', live'.isSealed, hr, rfl, fun _ h hcode => by cases h; cases hcode⟩
  · split
    · exact .pure ⟨_, live', true, hr, rfl, fun _ h hcode => by cases h; cases hcode⟩
    · refine .pure ⟨_, live', live'.isSealed, hr, rfl, fun _ h hcode => ?_⟩
      cases h
      exact ⟨_, rfl, isRefusal_of_responseCode hcode⟩

theorem returns_handle : (handle env device caller context request live).Returns NoRefusal fun r =>
    Touched (Set.range context.clock) { live with replay := window env caller context request live } r.2 ∧
      ∀ response, r.1 = .error response → response.code = .authorizationRequired → r.2.lease = live.lease := by
  refine (returns_handle_of (Q := Leaves env caller context request live) returns_handleInner).mono ?_
  rintro r ⟨result, live', isSealed, ⟨htouched, hrefused⟩, hleft, hcode⟩
  rw [hleft]
  exact ⟨⟨htouched.lease, htouched.replay⟩, fun response hr h => hrefused (hcode response hr h)⟩

end VaultService

/-! ## Events -/

/-- The readings at which an event may touch the lease. -/
def Event.readings : Event → Set (UInt64 × Instant)
  | .request _ _ context => Set.range context.clock
  | .authorizeBatch _ now _ after | .authorizeExclusive _ _ _ now _ after => {(now, after)}
  | .recheck .. | .expireIfNeeded _ | .sealNow | .start .. => ∅

/-- The window an event leaves. -/
def Event.window (env : ServiceEnv) (live : LiveState) : Event → ReplayWindow
  | .request caller asked context => VaultService.window env caller context asked live
  | .start .. => ⟨[]⟩
  | _ => live.replay

/-- An event that opens the service anew. -/
def Event.isStart : Event → Bool
  | .start .. => true
  | _ => false

section

open ServiceM VaultService

variable {env : ServiceEnv} {device : Device} {event : Event × Nat} {sample : UInt64 × Instant} {now : UInt64}

theorem returns_left {α : Type} {readings : Set (UInt64 × Instant)} {x : ServiceM α} (h : x.Touching readings) (live : LiveState) :
    (x.left live).Returns NoRefusal fun r => ∃ live', r = some live' ∧ Touched readings live live' :=
  (h live).bind fun r hr => .pure ⟨r.2, rfl, hr.1⟩

theorem quiet_recheck {caller : CallerIdentity} {id : Option String} : (recheck env caller id sample).Quiet := by
  refine quiet_lockLive.bind fun _ => ?_
  cases id with
  | some id => exact quiet_permissionStatus.bind fun _ => quiet_pure _
  | none => exact (quiet_liftStore _).bind fun _ => quiet_listPermissions.bind fun _ => quiet_pure _

theorem quiet_expireIfNeeded : (expireIfNeeded sample).Quiet := by
  refine quiet_lockLive.bind fun _ => quiet_getLive.bind fun live => ?_
  split
  · exact (quiet_liftStore _).bind fun _ => quiet_update fun _ => ⟨rfl, rfl⟩
  · exact quiet_pure _

/-- **What one event does to the lease and the window**, whatever the store answers. -/
theorem Event.returns_program {event : Event} (hstart : event.isStart = false) (live : LiveState) :
    (event.program env device (some live)).Returns NoRefusal fun r => ∃ live', r = some live' ∧
      Touched event.readings { live with replay := event.window env live } live' := by
  cases event with
  | start now monotonicNow policy => cases hstart
  | request caller asked context => exact returns_handle.bind fun r hr => .pure ⟨r.2, rfl, hr.1⟩
  | authorizeBatch grants now before after =>
    exact returns_left (quiet_lockLive.touching_bind fun _ => (quiet_lift _).touching_bind fun _ =>
      (quiet_liftStore _).touching_bind fun _ => touching_touch (Set.mem_singleton _)) live
  | authorizeExclusive caller target permissions now before after =>
    exact returns_left (quiet_lockLive.touching_bind fun _ => (quiet_liftStore _).touching_bind fun _ =>
      touching_touch (Set.mem_singleton _)) live
  | recheck caller id sample => exact returns_left quiet_recheck.touching live
  | expireIfNeeded sample => exact returns_left quiet_expireIfNeeded.touching live
  | sealNow => exact .pure ⟨_, rfl, .inl rfl, rfl⟩

theorem returns_openService : (openService env now monotonicNow policy).Returns NoRefusal fun live =>
      live.replay = ⟨[]⟩ ∧ UnsealLease.new now monotonicNow policy = .ok live.lease :=
  (Program.Returns.of_all _ fun _ => trivial).bind fun _ (_ : True) =>
    (Program.Returns.done fun _ h => h).bind fun _ hlease =>
      (Program.Returns.of_all _ fun _ => trivial).bind fun _ (_ : True) => .pure ⟨rfl, hlease⟩

theorem Service.returns_step {Q : Option LiveState → Prop}
    (hprogram : (event.1.program env device s.live).Returns NoRefusal Q) (h : (s.step env device event).live = some live) :
    Q (some live) := by
  unfold step at h
  split at h
  next found vault count hrun =>
    dsimp only at h
    subst h
    exact hprogram.runFor (noRefusal_execute env.toVaultEnv device) (congrArg Prod.fst hrun)
  next => cases h

/-- **One event at a running service.** -/
theorem Service.touched_step {live' : LiveState} (hstart : event.1.isStart = false)
    (hlive : s.live = some live) (h : (s.step env device event).live = some live') :
    Touched event.1.readings { live with replay := event.1.window env live } live' := by
  obtain ⟨left, hleft, htouched⟩ := returns_step (hlive ▸ Event.returns_program hstart live) h
  cases hleft
  exact htouched

/-- Nothing happens at a service that is down. -/
theorem Service.live_step_of_down (hstart : event.1.isStart = false)
    (hlive : s.live = none) : (s.step env device event).live = none := by
  obtain ⟨event, limit⟩ := event
  unfold step
  rw [hlive]
  cases event with
  | start now monotonicNow policy => cases hstart
  | request | authorizeBatch | authorizeExclusive | recheck | expireIfNeeded | sealNow => cases limit <;> rfl

theorem Service.opened_step {limit : Nat}
    (h : (s.step env device (.start now monotonicNow policy, limit)).live = some live) :
    live.replay = ⟨[]⟩ ∧ UnsealLease.new now monotonicNow policy = .ok live.lease := by
  have hprogram : (Event.program env device (.start now monotonicNow policy) s.live).Returns NoRefusal fun r =>
      ∀ live, r = some live → live.replay = ⟨[]⟩ ∧ UnsealLease.new now monotonicNow policy = .ok live.lease :=
    returns_openService.bind fun live hlive => .pure fun _ h => by
      cases h
      exact hlive
  exact returns_step hprogram h live rfl

end

/-! ## The identifiers a service has accepted -/

section

variable (env : ServiceEnv) (device : Device) {ids : List RequestId}

/-- The identifier of a request that is let in. -/
def Event.accepts (live : LiveState) : Event → List RequestId
  | .request caller asked context =>
    match VaultService.admission env caller context asked live with
    | .ok _ => [asked.requestId]
    | .error _ => []
  | _ => []

/-- The identifiers accepted since the service was opened, with those of one more event. -/
def Service.noted (s : Service) (ids : List RequestId) (event : Event) : List RequestId :=
  if event.isStart then [] else ids ++ (s.live.map fun live => event.accepts env live).getD []

/-- The identifiers accepted in a run since the service was last opened. -/
def Service.acceptedIds : Service → List RequestId → List (Event × Nat) → List RequestId
  | _, ids, [] => ids
  | s, ids, event :: events => acceptedIds (s.step env device event) (s.noted env ids event.1) events

variable {env device}

theorem Event.holds_window {event : Event} (h : live.replay.Holds ids)
    (hstart : event.isStart = false) : (event.window env live).Holds (ids ++ event.accepts env live) := by
  cases event with
  | start now monotonicNow policy => cases hstart
  | request caller asked context =>
    cases hadmission : VaultService.admission env caller context asked live with
    | ok window =>
      simp only [Event.window, VaultService.window, Event.accepts, hadmission]
      simp only [VaultService.admission, bind_eq_ok] at hadmission
      obtain ⟨-, -, -, -, -, -, hconsume⟩ := hadmission
      exact h.consume hconsume
    | error e =>
      simp only [Event.window, VaultService.window, Event.accepts, hadmission, append_nil]
      exact h
  | authorizeBatch | authorizeExclusive | recheck | expireIfNeeded | sealNow =>
    simp only [Event.window, Event.accepts, append_nil]
    exact h

/-- **One event keeps the window to the last accepted identifiers.** -/
theorem Service.holds_step {event : Event × Nat}
    (h : ∀ live, s.live = some live → live.replay.Holds ids) {live' : LiveState}
    (hstep : (s.step env device event).live = some live') : live'.replay.Holds (s.noted env ids event.1) := by
  obtain ⟨event, limit⟩ := event
  cases hstart : event.isStart with
  | true =>
    cases event with
    | start now monotonicNow policy =>
      rw [(opened_step hstep).1]
      exact holds_nil
    | request | authorizeBatch | authorizeExclusive | recheck | expireIfNeeded | sealNow => cases hstart
  | false =>
    cases hlive : s.live with
    | none =>
      rw [live_step_of_down hstart hlive] at hstep
      cases hstep
    | some live =>
      rw [(touched_step hstart hlive hstep).replay, noted, hstart, hlive]
      exact Event.holds_window (h live hlive) hstart

/-- **In every run the window holds the last accepted identifiers.** -/
theorem Service.holds_run (h : ∀ live, s.live = some live → live.replay.Holds ids)
    {events : List (Event × Nat)} (hrun : (s.run env device events).live = some live) :
    live.replay.Holds (s.acceptedIds env device ids events) := by
  induction events generalizing s ids with
  | nil => exact h live hrun
  | cons event events ih => exact ih (fun live' hlive' => holds_step h hlive') hrun

theorem ReplayTable.consume_eq_replay (ids : List RequestId) (id : RequestId) :
    (process.run new ids).consume id = .error .replay ↔ id ∈ (process.accepted new ids).rtake maxReplayIds := by
  obtain ⟨window, hagrees, hholds⟩ := exists_agrees ids
  rw [← hholds.consume_eq_replay]
  rcases hagrees.consume id with ⟨htable, hwindow⟩ | ⟨table', window', htable, hwindow, -⟩
  · exact iff_of_true htable hwindow
  · rw [htable, hwindow]
    exact iff_of_false nofun nofun

/-- A service whose request is refused stays as it is, but for the seal. -/
theorem Service.step_of_refused (hlive : s.live = some live) {caller : CallerIdentity}
    {request : VaultRequest} {context : RequestContext} {limit : Nat} {isSealed : Bool}
    {result : Except VaultResponseError VaultResponseBody}
    (h : VaultService.handle env device caller context request live = pure (result, { live with isSealed })) :
    s.step env device (.request caller request context, limit) = ⟨s.vault, some { live with isSealed }⟩ := by
  have hprogram : Event.program env device (.request caller request context) s.live =
      pure (some { live with isSealed }) := by
    rw [hlive, Event.program, h]
    rfl
  unfold step
  rw [hprogram]
  cases limit <;> rfl

/-- **Replays.** The set and the queue of the source refuse, over every sequence of identifiers, exactly those among the
last 4096 accepted ones. In every run of the service, a valid request at a running lease is refused as a replay exactly
if its identifier is among the last 4096 accepted since the service was opened. A request so refused runs no command on
the store and leaves the approvals, the lease and the window as they were; if the lease has run out by the end of the
request the service seals, and otherwise nothing changes and the answer is the refusal. -/
theorem replayed_iff_recent {events : List (Event × Nat)} {live : LiveState}
    (hlive : (Service.create.run env device events).live = some live) (caller : CallerIdentity)
    (context : RequestContext) (request : VaultRequest) (limit : Nat) :
    (∀ ids id, (ReplayTable.process.run .new ids).consume id = .error .replay ↔
      id ∈ (ReplayTable.process.accepted .new ids).rtake 4096) ∧
    (caller.validate = .ok () → request.validate env.requestSize = .ok () → live.isSealed = false →
      live.lease.isExpired (context.clock 0).2 = false →
      (VaultService.admission env caller context request live = .error .replay ↔
        request.requestId ∈ (Service.create.acceptedIds env device [] events).rtake 4096)) ∧
    (VaultService.admission env caller context request live = .error .replay →
      ∃ response isSealed, VaultService.handle env device caller context request live =
          pure (.error response, { live with isSealed }) ∧
        (Service.create.run env device events).step env device (.request caller request context, limit) =
          ⟨(Service.create.run env device events).vault, some { live with isSealed }⟩ ∧
        (live.isSealed = false → live.lease.isExpired (context.clock 7).2 = false → isSealed = false ∧
          response = VaultService.responseError ⟨.replay, none⟩)) := by
  refine ⟨ReplayTable.consume_eq_replay, fun hcaller hrequest hsealed hlease => ?_, fun hreplay => ?_⟩
  · have hholds : live.replay.Holds (create.acceptedIds env device [] events) :=
      holds_run (fun _ h => by cases h) hlive
    rw [VaultService.admission, hcaller, hrequest, ok_bind, ok_bind, ensure_of ⟨hsealed, hlease⟩, ok_bind]
    exact hholds.consume_eq_replay
  · obtain ⟨response, isSealed, hhandle, hkept⟩ := VaultService.handle_of_refused device hreplay
    refine ⟨response, isSealed, hhandle, step_of_refused hlive hhandle, fun hs hl => ?_⟩
    obtain ⟨hresponse, hsame⟩ := hkept hs hl nofun
    exact ⟨hsame, hresponse⟩

end

namespace Reference

/-- The application asks for the status a second after the service was opened. -/
def asksStatus : VaultRequest := ⟨protocolVersion, Vector.replicate 16 9, none, .status⟩

def aSecondLater : RequestContext where
  clock _ := (101, 1000000000)
  actionClock _ := (101, 1000000000)
  fresh := (Vector.replicate 16 0, Vector.replicate 32 0)
  peer _ := .error .authorizationRequired

/-- The service is opened for a minute and answers the request. -/
def answered : List (Event × Nat) :=
  [(.start 100 0 ⟨30000000000, 60000000000⟩, 9), (.request editor asksStatus aSecondLater, 9)]

end Reference

/-- The same request again is refused. -/
theorem replayed_iff_recent_again : ∃ live,
    (Service.create.run referenceService Reference.thisDevice Reference.answered).live = some live ∧
      VaultService.admission referenceService Reference.editor Reference.aSecondLater Reference.asksStatus live =
        .error .replay := by
  have hfound : ((create.run referenceService thisDevice answered).live.any fun live =>
      live.isSealed = false ∧ live.lease.isExpired 1000000000 = false) = true := by decide +kernel
  obtain ⟨live, hlive, hrunning⟩ := Option.any_eq_true _ _ |>.1 hfound
  have hmem : asksStatus.requestId ∈ (create.acceptedIds referenceService thisDevice []
      answered).rtake 4096 := by decide +kernel
  obtain ⟨hsealed, hlease⟩ := of_decide_eq_true hrunning
  obtain ⟨-, hiff, -⟩ := replayed_iff_recent hlive editor aSecondLater asksStatus 9
  exact ⟨live, hlive, (hiff (by decide) (by decide) hsealed hlease).2 hmem⟩

end FactorSeal
