import FactorSeal.Service.Replay
import FactorSeal.Sync.Worker

/-! # The lease over a run (protocol/lease.rs, protocol/service/state.rs)

A lease carries its deadlines twice, in seconds of the wall clock, which `Status` reports, and as points of the monotonic
clock, which alone decide when it is over (`is_expired`). What it says is determined by its beginning and its last touch
(`UnsealLease.Since`). In a run of the service every event touches the lease at most once, and requests that are refused,
listings, waits and sync commands do not. -/

namespace FactorSeal

open Wire Except UnsealLease Process List Service

variable {touches : List (UInt64 × Instant)}

/-! ## Touches -/

namespace UnsealLease

variable {after : List (UInt64 × Instant)}

/-- `expires_at`. -/
def expiresAt (lease : UnsealLease) : Instant := min lease.idleExpiresAt lease.absoluteExpiresAt

/-- Touches of a lease, at readings of both clocks. -/
def process : Process UnsealLease (UInt64 × Instant) VaultError := ⟨fun lease sample => lease.touch sample.1 sample.2⟩

/-- The reading of the last touch that was not refused, or of the beginning. -/
def lastTouch (lease : UnsealLease) (start : UInt64 × Instant) (touches : List (UInt64 × Instant)) : UInt64 × Instant :=
  (process.accepted lease touches).getLast?.getD start

variable {lease lease' : UnsealLease} {policy : UnsealLeasePolicy} {start last sample : UInt64 × Instant}

theorem isExpired_eq_true {now : Instant} : lease.isExpired now = true ↔ lease.expiresAt ≤ now := by
  simp [isExpired, expiresAt]

theorem addSecs_eq_ok {now deadline : UInt64} {seconds : Nat} (h : addSecs now seconds = .ok deadline) :
    deadline.toNat = now.toNat + seconds := by
  unfold addSecs at h
  split at h
  next hlt =>
    cases h
    rw [UInt64.toNat_add, UInt64.toNat_ofNat', Nat.mod_eq_of_lt (by omega : seconds < 2 ^ 64), Nat.mod_eq_of_lt hlt]
  next => cases h

/-- The deadlines of a lease begun and last touched at these readings. -/
structure Since (policy : UnsealLeasePolicy) (start last : UInt64 × Instant) (lease : UnsealLease) : Prop where
  idleTimeout : lease.idleTimeout = policy.idleTimeout
  absoluteExpiresAt : lease.absoluteExpiresAt = start.2 + policy.maximumLifetime
  idleExpiresAt : lease.idleExpiresAt = min (last.2 + policy.idleTimeout) (start.2 + policy.maximumLifetime)
  absoluteDeadline : lease.absoluteDeadline.toNat = start.1.toNat + asSecs policy.maximumLifetime
  idleDeadline : lease.idleDeadline.toNat =
    min (last.1.toNat + asSecs policy.idleTimeout) (start.1.toNat + asSecs policy.maximumLifetime)

theorem toNat_min (a b : UInt64) : (min a b).toNat = min a.toNat b.toNat := by
  show (if a ≤ b then a else b).toNat = _
  split
  next h =>
    rw [UInt64.le_iff_toNat_le] at h
    omega
  next h =>
    rw [UInt64.le_iff_toNat_le] at h
    omega

theorem since_new (h : new start.1 start.2 policy = .ok lease) : Since policy start start lease := by
  simp only [new, bind_eq_ok, ensure_eq_ok] at h
  obtain ⟨⟨⟩, -, absoluteDeadline, habsolute, idleDeadline, hidle, h⟩ := h
  cases h
  exact ⟨rfl, rfl, rfl, addSecs_eq_ok habsolute, by
    rw [toNat_min, addSecs_eq_ok hidle, addSecs_eq_ok habsolute]⟩

/-- **A touch leaves the deadlines of a lease touched last at its reading.** -/
theorem Since.touch (h : Since policy start last lease) (htouch : lease.touch sample.1 sample.2 = .ok lease') :
    Since policy start sample lease' := by
  simp only [UnsealLease.touch, bind_eq_ok, ensure_eq_ok] at htouch
  obtain ⟨⟨⟩, -, idleDeadline, hidle, htouch⟩ := htouch
  cases htouch
  exact ⟨h.idleTimeout, h.absoluteExpiresAt, by rw [h.idleTimeout, h.absoluteExpiresAt], h.absoluteDeadline, by
    rw [toNat_min, addSecs_eq_ok hidle, h.absoluteDeadline, h.idleTimeout]⟩

theorem touch_of_expired (h : lease.isExpired sample.2 = true) : lease.touch sample.1 sample.2 = .error .sealed := by
  rw [touch, ensure_of_not (by rw [h]; nofun), error_bind]

theorem isExpired_mono {t t' : Instant} (h : lease.isExpired t = true) (hle : t ≤ t') : lease.isExpired t' = true := by
  rw [isExpired_eq_true] at h ⊢
  exact le_trans h hle

/-- **A lease stays over**: touches after its end are refused. -/
theorem run_of_expired {t : Instant} (h : lease.isExpired t = true)
    (hafter : ∀ sample ∈ touches, t ≤ sample.2) : process.run lease touches = lease := by
  induction touches with
  | nil => rfl
  | cons sample touches ih =>
    have hrefused : process.step lease sample = .error .sealed :=
      touch_of_expired (isExpired_mono h (hafter sample mem_cons_self))
    rw [run_cons, next_of_error hrefused]
    exact ih fun other hother => hafter other (mem_cons_of_mem _ hother)

theorem since_run (h : new start.1 start.2 policy = .ok lease) (touches : List (UInt64 × Instant)) :
    Since policy start (lease.lastTouch start touches) (process.run lease touches) := by
  induction touches using reverseRecOn with
  | nil => exact since_new h
  | append_singleton touches sample ih =>
    unfold lastTouch at ih ⊢
    rw [run_concat, accepted_concat]
    cases hstep : process.step (process.run lease touches) sample with
    | ok touched =>
      rw [next_of_ok hstep, acceptedOne_of_ok hstep, getLast?_concat, Option.getD_some]
      exact ih.touch hstep
    | error e =>
      rw [next_of_error hstep, acceptedOne_of_error hstep, append_nil]
      exact ih

theorem Since.expiresAt (h : Since policy start last lease) :
    lease.expiresAt = min (last.2 + policy.idleTimeout) (start.2 + policy.maximumLifetime) := by
  rw [UnsealLease.expiresAt, h.idleExpiresAt, h.absoluteExpiresAt, min_assoc, min_self]

/-- The last touch is the beginning or one of the touches. -/
theorem lastTouch_mem (lease : UnsealLease) (start : UInt64 × Instant) (touches : List (UInt64 × Instant)) :
    lease.lastTouch start touches ∈ start :: touches := by
  unfold lastTouch
  cases hlast : (process.accepted lease touches).getLast? with
  | none => exact mem_cons_self
  | some sample => exact mem_cons_of_mem _ (mem_of_accepted (mem_of_getLast? hlast))

theorem lastTouch_append (touches after : List (UInt64 × Instant)) :
    lease.lastTouch start (touches ++ after) =
      (process.run lease touches).lastTouch (lease.lastTouch start touches) after := by
  unfold lastTouch
  rw [accepted_append, getLast?_append]
  cases (process.accepted (process.run lease touches) after).getLast? with
  | none => rfl
  | some sample => rfl

theorem lastTouch_le {R : UInt64 × Instant → UInt64 × Instant → Prop} (hrefl : ∀ s, R s s)
    (horder : (start :: (touches ++ after)).Pairwise R) :
    R (lease.lastTouch start touches) (lease.lastTouch start (touches ++ after)) := by
  rw [lastTouch_append]
  rcases mem_cons.1 (lastTouch_mem (process.run lease touches) (lease.lastTouch start touches) after) with heq | hmem
  · rw [heq]
    exact hrefl _
  · rw [← cons_append, pairwise_append] at horder
    exact horder.2.2 _ (lastTouch_mem lease start touches) _ hmem

/-- A touch that comes after the last one does not bring the end forward. -/
theorem expiresAt_le_run (h : new start.1 start.2 policy = .ok lease)
    (horder : (start :: (touches ++ after)).Pairwise (·.2 ≤ ·.2)) :
    (process.run lease touches).expiresAt ≤ (process.run lease (touches ++ after)).expiresAt := by
  rw [(since_run h touches).expiresAt, (since_run h (touches ++ after)).expiresAt]
  have hle : (lease.lastTouch start touches).2 ≤ (lease.lastTouch start (touches ++ after)).2 :=
    lastTouch_le (fun s => le_refl s.2) horder
  exact min_le_min (Nat.add_le_add_right hle _) le_rfl

theorem idleDeadline_le_run (h : new start.1 start.2 policy = .ok lease)
    (horder : (start :: (touches ++ after)).Pairwise (·.1.toNat ≤ ·.1.toNat)) :
    (process.run lease touches).idleDeadline.toNat ≤ (process.run lease (touches ++ after)).idleDeadline.toNat := by
  rw [(since_run h touches).idleDeadline, (since_run h (touches ++ after)).idleDeadline]
  have hle : (lease.lastTouch start touches).1.toNat ≤ (lease.lastTouch start (touches ++ after)).1.toNat :=
    lastTouch_le (fun s => le_refl s.1.toNat) horder
  exact min_le_min (Nat.add_le_add_right hle _) le_rfl

end UnsealLease

/-! ## What happens to a service -/

/-- `sync_command` (service/sync.rs:148-153): it holds the live state and does not touch its lease. -/
def VaultService.syncCommand (sync : SyncEnv) (device : Device) (now : UInt64) (monotonicNow : Instant)
    (command : SyncCommand sync) (live : LiveState) (v : PlainVault) :
    VaultResult (SyncReply sync.toPairingEnv) × LiveState × PlainVault :=
  if live.isSealed then (.error .sealed, live, v)
  else if live.lease.isExpired monotonicNow then (.error .sealed, { live with isSealed := true }, v)
  else
    match StoreOps.personalSync sync device (PlainVault.ops sync.toVaultEnv device) v now command with
    | .ok (reply, v) => (.ok reply, live, v)
    | .error e => (.error e, live, v)

/-- An event of the service or a command of the background sync. -/
inductive Activity (sync : SyncEnv) where
  | serves (event : Event × Nat)
  | syncs (now : UInt64) (monotonicNow : Instant) (command : SyncCommand sync)

/-- An action that lists permissions or waits for one. -/
def VaultAction.listsOrWaits : VaultAction → Bool
  | .listPermissions | .listPermissionsPage .. | .waitPermissions .. | .waitPermission .. => true
  | .keyringAccess _ _ _ _ _ pending => pending.isSome
  | _ => false

namespace Activity

variable {sync : SyncEnv}

def isStart : Activity sync → Bool
  | .serves event => event.1.isStart
  | .syncs .. => false

/-- The readings at which the lease may be touched. -/
def readings : Activity sync → Set (UInt64 × Instant)
  | .serves event => event.1.readings
  | .syncs .. => ∅

/-- Listings, waits and sync commands. -/
def isBackground : Activity sync → Bool
  | .serves (.request _ asked _, _) => asked.action.listsOrWaits
  | .serves (.recheck .., _) => true
  | .serves _ => false
  | .syncs .. => true

end Activity

namespace Service

variable (env : ServiceEnv) (sync : SyncEnv) (device : Device)

def act (s : Service) : Activity sync → Service
  | .serves event => s.step env device event
  | .syncs now monotonicNow command =>
    match s.live with
    | none => s
    | some live =>
      let (_, live, vault) := VaultService.syncCommand sync device now monotonicNow command live s.vault
      ⟨vault, some live⟩

def acts (s : Service) (activities : List (Activity sync)) : Service := activities.foldl (act env sync device) s

end Service

section

open ServiceM VaultService

variable {env : ServiceEnv} {sync : SyncEnv} {device : Device} {caller : CallerIdentity} {context : RequestContext}
  {live live' : LiveState} {s : Service} {activities : List (Activity sync)}

theorem quiet_dispatch {action : VaultAction} {application : Option VaultApplicationContext}
    (h : action.listsOrWaits = true) : (dispatch env device caller context action application).Quiet := by
  cases action with
  | listPermissions => exact quiet_permissionsPage
  | listPermissionsPage revision cursor => exact quiet_permissionsPage
  | waitPermissions revision timeoutMs => exact quiet_waitForApprovals
  | waitPermission id timeoutMs => exact quiet_waitForPermission.bind fun _ => quiet_pure _
  | keyringAccess entry sender service operation action pending =>
    obtain ⟨id, rfl⟩ := Option.isSome_iff_exists.1 h
    exact (quiet_liftStore _).bind fun _ => (quiet_lift _).bind fun _ => (quiet_lift _).bind fun _ =>
      quiet_waitForPermission.bind fun _ => quiet_pure _
  | _ => cases h

theorem returns_handle_of_lists {request : VaultRequest} (h : request.action.listsOrWaits = true) :
    (VaultService.handle env device caller context request live).Returns NoRefusal fun r => r.2.lease = live.lease := by
  have hinner : (handleInner env device caller context request live).Returns NoRefusal fun r =>
      r.2.lease = live.lease := by
    cases hadmission : admission env caller context request live with
    | ok window =>
      rw [handleInner_of_admitted hadmission]
      exact (quiet_dispatch h _).mono fun _ hsame => hsame.lease
    | error e =>
      obtain ⟨isSealed, hinner, -⟩ := handleInner_of_refused device hadmission
      rw [hinner]
      exact .pure rfl
  refine (returns_handle_of (Q := fun _ live' => live'.lease = live.lease) hinner).mono ?_
  rintro r ⟨result, live', isSealed, hlease, hleft, -⟩
  rw [hleft]
  exact hlease

theorem syncCommand_lease {now : UInt64} {monotonicNow : Instant} {command : SyncCommand sync}
    {v : PlainVault} : (syncCommand sync device now monotonicNow command live v).2.1.lease = live.lease := by
  unfold syncCommand
  split
  · rfl
  split
  · rfl
  split <;> rfl

/-- **What one activity does to the lease**: at most one touch, and none in the background. -/
theorem Service.lease_act {activity : Activity sync} (hstart : activity.isStart = false) (hlive : s.live = some live)
    (h : (s.act env sync device activity).live = some live') :
    live'.lease = live.lease ∨ activity.isBackground = false ∧
      ∃ sample ∈ activity.readings, live.lease.touch sample.1 sample.2 = .ok live'.lease := by
  cases activity with
  | syncs now monotonicNow command =>
    left
    simp only [act, hlive, Option.some.injEq] at h
    rw [← h]
    exact syncCommand_lease
  | serves event =>
    have htouched := touched_step hstart hlive h
    cases hbackground : (Activity.serves event : Activity sync).isBackground with
    | false =>
      rcases htouched.lease with hsame | htouch
      · exact .inl hsame
      · exact .inr ⟨rfl, htouch⟩
    | true =>
      left
      obtain ⟨event, limit⟩ := event
      cases event with
      | request caller asked context =>
        have hprogram : (Event.program env device (.request caller asked context) s.live).Returns NoRefusal fun r =>
            ∀ live', r = some live' → live'.lease = live.lease := by
          rw [hlive]
          exact (returns_handle_of_lists hbackground).bind fun r hr => .pure fun _ h => by
            cases h
            exact hr
        exact returns_step hprogram h live' rfl
      | recheck caller id sample =>
        rcases htouched.lease with hsame | ⟨_, hmem, -⟩
        · exact hsame
        · cases hmem
      | authorizeBatch | authorizeExclusive | expireIfNeeded | sealNow | start => cases hbackground

theorem Service.live_acts_of_down (hlive : s.live = none)
    (hstart : ∀ activity ∈ activities, activity.isStart = false) : (s.acts env sync device activities).live = none := by
  induction activities generalizing s with
  | nil => exact hlive
  | cons activity activities ih =>
    refine ih ?_ fun other hother => hstart other (mem_cons_of_mem _ hother)
    have hfirst := hstart activity mem_cons_self
    cases activity with
    | serves event => exact live_step_of_down hfirst hlive
    | syncs now monotonicNow command =>
      simp only [act, hlive]

/-- The readings of a run at which its lease was touched, at most one of each activity and in order. -/
inductive Touches : List (Activity sync) → List (UInt64 × Instant) → Prop
  | nil : Touches [] []
  | skip {activity : Activity sync} {activities : List (Activity sync)} {touches : List (UInt64 × Instant)}
    (h : Touches activities touches) : Touches (activity :: activities) touches
  | touch {activity : Activity sync} {activities : List (Activity sync)} {touches : List (UInt64 × Instant)}
    {sample : UInt64 × Instant} (hforeground : activity.isBackground = false) (hmem : sample ∈ activity.readings)
    (h : Touches activities touches) : Touches (activity :: activities) (sample :: touches)

theorem Touches.mem (h : Touches activities touches)
    {sample : UInt64 × Instant} (hmem : sample ∈ touches) : ∃ activity ∈ activities, sample ∈ activity.readings := by
  induction h with
  | nil => cases hmem
  | skip _ ih =>
    obtain ⟨activity, hactivity, hsample⟩ := ih hmem
    exact ⟨activity, mem_cons_of_mem _ hactivity, hsample⟩
  | touch _ hreading _ ih =>
    rcases mem_cons.1 hmem with rfl | hmem
    · exact ⟨_, mem_cons_self, hreading⟩
    · obtain ⟨activity, hactivity, hsample⟩ := ih hmem
      exact ⟨activity, mem_cons_of_mem _ hactivity, hsample⟩

theorem Touches.pairwise (h : Touches activities touches)
    (horder : activities.Pairwise fun a b => ∀ s ∈ a.readings, ∀ t ∈ b.readings, s.2 ≤ t.2) :
    touches.Pairwise (·.2 ≤ ·.2) := by
  induction h with
  | nil => exact .nil
  | skip _ ih => exact ih (pairwise_cons.1 horder).2
  | touch _ hreading hrest ih =>
    obtain ⟨hfirst, horder⟩ := pairwise_cons.1 horder
    refine pairwise_cons.2 ⟨fun sample hmem => ?_, ih horder⟩
    obtain ⟨other, hother, hsample⟩ := hrest.mem hmem
    exact hfirst other hother _ hreading _ hsample

/-- **The lease after a run is the lease touched at some of the run's readings.** -/
theorem Service.exists_touches (hstart : ∀ activity ∈ activities, activity.isStart = false) (hlive : s.live = some live)
    (h : (s.acts env sync device activities).live = some live') :
    ∃ touches, Touches activities touches ∧ live'.lease = UnsealLease.process.run live.lease touches := by
  induction activities generalizing s live with
  | nil =>
    obtain rfl := Option.some.inj (hlive.symm.trans h)
    exact ⟨[], .nil, rfl⟩
  | cons activity activities ih =>
    have hrest := fun other hother => hstart other (mem_cons_of_mem activity hother)
    cases hnext : (s.act env sync device activity).live with
    | none =>
      have hdown : (acts env sync device (s.act env sync device activity) activities).live = none :=
        live_acts_of_down hnext hrest
      rw [show s.acts env sync device (activity :: activities) =
        acts env sync device (s.act env sync device activity) activities from rfl, hdown] at h
      cases h
    | some next =>
      obtain ⟨touches, htouches, hlease⟩ := ih hrest hnext h
      rcases lease_act (hstart activity mem_cons_self) hlive hnext with hsame | ⟨hfg, sample, hmem, htouch⟩
      · exact ⟨touches, .skip htouches, by rw [hlease, hsame]⟩
      · have hstep : UnsealLease.process.step live.lease sample = .ok next.lease := htouch
        exact ⟨sample :: touches, .touch hfg hmem htouches, by
          rw [hlease, run_cons, next_of_ok hstep]⟩

/-- **The lease.** Over touches at readings whose monotonic times do not go back, the end of the lease is never after its
beginning plus the maximum lifetime, nor after the last touch plus the idle time, is never brought forward, and a lease
that is over on the monotonic clock stays over; the deadlines of the wall clock keep the same bounds. In every run of the
service the lease is the first one, touched at most once by each activity and never by a listing, a wait or a sync
command; a request answered with a refusal leaves it, and one that comes after its end runs nothing on the store. -/
theorem lease_ends {policy : UnsealLeasePolicy} {start : UInt64 × Instant} {lease : UnsealLease}
    (hnew : UnsealLease.new start.1 start.2 policy = .ok lease) :
    (∀ touches after : List (UInt64 × Instant), (start :: (touches ++ after)).Pairwise (·.2 ≤ ·.2) →
      (UnsealLease.process.run lease touches).expiresAt ≤ start.2 + policy.maximumLifetime ∧
      (UnsealLease.process.run lease touches).expiresAt ≤ (lease.lastTouch start touches).2 + policy.idleTimeout ∧
      (UnsealLease.process.run lease touches).expiresAt ≤ (UnsealLease.process.run lease (touches ++ after)).expiresAt ∧
      ∀ t, (UnsealLease.process.run lease touches).isExpired t = true → (∀ sample ∈ after, t ≤ sample.2) →
        ∀ t', t ≤ t' → (UnsealLease.process.run lease (touches ++ after)).isExpired t' = true) ∧
    (∀ touches after : List (UInt64 × Instant), (start :: (touches ++ after)).Pairwise (·.1.toNat ≤ ·.1.toNat) →
      (UnsealLease.process.run lease touches).idleDeadline.toNat ≤ start.1.toNat + asSecs policy.maximumLifetime ∧
      (UnsealLease.process.run lease touches).idleDeadline.toNat ≤
        (lease.lastTouch start touches).1.toNat + asSecs policy.idleTimeout ∧
      (UnsealLease.process.run lease touches).idleDeadline.toNat ≤
        (UnsealLease.process.run lease (touches ++ after)).idleDeadline.toNat) ∧
    (∀ (env : ServiceEnv) (sync : SyncEnv) (device : Device) (s : Service) (activities : List (Activity sync))
      (live live' : LiveState), s.live = some live → live.lease = lease →
      (∀ activity ∈ activities, activity.isStart = false ∧ ∀ sample ∈ activity.readings, start.2 ≤ sample.2) →
      (activities.Pairwise fun a b => ∀ s ∈ a.readings, ∀ t ∈ b.readings, s.2 ≤ t.2) →
      (s.acts env sync device activities).live = some live' →
      ∃ touches, Touches activities touches ∧ (start :: touches).Pairwise (·.2 ≤ ·.2) ∧
        live'.lease = UnsealLease.process.run lease touches) ∧
    (∀ (env : ServiceEnv) (device : Device) (caller : CallerIdentity) (context : RequestContext) (request : VaultRequest)
      (live live' : LiveState) (v v' : PlainVault) (response : VaultResponseError),
      (VaultService.handle env device caller context request live).run
          ((PlainVault.ops env.toVaultEnv device).execute env.toVaultEnv device) v = (.ok (.error response, live'), v') →
      response.code = .authorizationRequired → live'.lease = live.lease) ∧
    ∀ (env : ServiceEnv) (device : Device) (caller : CallerIdentity) (context : RequestContext) (request : VaultRequest)
      (live : LiveState), live.lease.isExpired (context.clock 0).2 = true →
      ∃ response isSealed, VaultService.handle env device caller context request live =
        pure (.error response, { live with isSealed }) := by
  refine ⟨fun touches after horder => ?_, fun touches after horder => ?_, ?_, ?_, ?_⟩
  · have hsince := since_run hnew touches
    refine ⟨hsince.expiresAt ▸ min_le_right .., hsince.expiresAt ▸ min_le_left .., expiresAt_le_run hnew horder,
      fun t hexpired hafter t' hle => ?_⟩
    rw [run_append, run_of_expired hexpired hafter]
    exact isExpired_mono hexpired hle
  · have hsince := since_run hnew touches
    exact ⟨hsince.idleDeadline ▸ min_le_right .., hsince.idleDeadline ▸ min_le_left ..,
      idleDeadline_le_run hnew horder⟩
  · rintro env sync device s activities live live' hlive rfl hactivities horder h
    obtain ⟨touches, htouches, hlease⟩ := exists_touches (fun a ha => (hactivities a ha).1) hlive h
    refine ⟨touches, htouches, pairwise_cons.2 ⟨fun sample hmem => ?_, htouches.pairwise horder⟩, hlease⟩
    obtain ⟨activity, hactivity, hsample⟩ := htouches.mem hmem
    exact (hactivities activity hactivity).2 sample hsample
  · intro env device caller context request live live' v v' response hrun hcode
    exact (returns_handle.run (noRefusal_execute env.toVaultEnv device) (congrArg Prod.fst hrun)).2 response rfl hcode
  · intro env device caller context request live hexpired
    have hrefused : ∀ window, admission env caller context request live ≠ .ok window := by
      intro window h
      simp only [admission, bind_eq_ok, ensure_eq_ok] at h
      obtain ⟨-, -, -, -, -, ⟨-, hlease⟩, -⟩ := h
      rw [hexpired] at hlease
      cases hlease
    cases hadmission : admission env caller context request live with
    | ok window => exact absurd hadmission (hrefused window)
    | error e =>
      obtain ⟨response, isSealed, hhandle, -⟩ := handle_of_refused device hadmission
      exact ⟨response, isSealed, hhandle⟩

end

/-- A lease of a minute with five seconds of idle time, begun at 100 s of the wall clock. -/
def Reference.briefLease : UnsealLease := ⟨5000000000, 105, 160, 5000000000, 60000000000⟩

theorem lease_ends_brief : UnsealLease.new 100 0 ⟨5000000000, 60000000000⟩ = .ok Reference.briefLease ∧
    (UnsealLease.process.run Reference.briefLease [(104, 4000000000)]).expiresAt ≤ 0 + 60000000000 := by
  have hnew : new 100 0 ⟨5000000000, 60000000000⟩ = .ok Reference.briefLease := by decide
  obtain ⟨htouches, -⟩ := @lease_ends ⟨5000000000, 60000000000⟩ (100, 0) Reference.briefLease hnew
  exact ⟨hnew, (htouches [(104, 4000000000)] [] (by simp)).1⟩

/-- One of the deadlines has passed on its clock. -/
def UnsealLease.passed (lease : UnsealLease) (sample : UInt64 × Instant) : Bool :=
  lease.idleDeadline ≤ sample.1 || lease.absoluteDeadline ≤ sample.1 || lease.isExpired sample.2

/-- The wall clock passes the deadline while the lease runs on; the next touch moves the deadline on again. -/
theorem passed_again : ¬ ∀ (policy : UnsealLeasePolicy) (start t t' : UInt64 × Instant) (lease : UnsealLease),
    UnsealLease.new start.1 start.2 policy = .ok lease → start.1 ≤ t.1 ∧ t.1 ≤ t'.1 → start.2 ≤ t.2 ∧ t.2 ≤ t'.2 →
    lease.passed t = true → (UnsealLease.process.run lease [t]).passed t' = true := by
  intro h
  have hpassed := h ⟨5000000000, 60000000000⟩ (100, 0) (106, 1000000000) (107, 2000000000) Reference.briefLease
    (by decide) (by decide) (by decide) (by decide)
  revert hpassed
  decide

end FactorSeal
