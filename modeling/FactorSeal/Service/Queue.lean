import FactorSeal.Lib.Window
import FactorSeal.Service.Reference
import Mathlib.Data.List.Pairwise
import Mathlib.Data.Vector.Defs

/-! # The queue of pending approvals over a lifetime of the service

What the service does to the queue is one of `QueueOp`. A lifetime begins with an empty queue or with what an earlier
lifetime saved (`Opened`), and takes operations in the order of the monotonic clock. Over it

* the queue stays within its bounds, each record asks for something of its own, and the creations are paced
  (`Lifetime.run`);
* an operation drops a record only if it is due or the operation resolves it (`mem_pending_apply`);
* a repeated request finds its record (`create_of_identical`). -/

namespace FactorSeal

open Wire Except ApprovalRecord Window
open List hiding Vector

/-- A sample of both clocks. `SystemTime` counts the seconds of the wall clock in an `i64`. -/
structure Reading where
  wall : UInt64
  monotonic : Instant
  wall_lt : wall.toNat < 2 ^ 63

/-- A record as it is saved. -/
def ApprovalRecord.forget (record : ApprovalRecord) : ApprovalRecord := { record with awaitedUntil := none }

/-- The records of a caller. -/
def ApprovalRecord.isOf (env : ServiceEnv) (fingerprint : Digest) (record : ApprovalRecord) : Bool :=
  record.caller.fingerprint env.sha256 = fingerprint

/-- What `create_at` checks before it makes a record. -/
structure ApprovalRecord.Proper (record : ApprovalRecord) : Prop where
  pending : record.summary.pendingUntil.isSome
  address : record.address.isSome
  project : record.summary.application.project.isSome
  operation : record.summary.operation ≠ .clear

/-- The operations of the service on its queue. An approval and a save meet a vault. -/
inductive QueueOp where
  | request (candidate : ApprovalCandidate) (fresh : Vector UInt8 16 × Digest) (reading : Reading)
  | deny (id : String) (reading : Reading)
  | approve (id : String) (signature : Bytes) (lifetime : ApprovedLifetime) (provenance : Provenance) (reading : Reading)
    (vault : PlainVault)
  | list (reading : Reading)
  | status (caller : CallerIdentity) (id : String) (reading : Reading)
  | awaited (caller : CallerIdentity) (id : String) (deadline : Instant)
  | changed
  | save (reading : Reading) (vault : PlainVault)

namespace QueueOp

def reading : QueueOp → Option Reading
  | request _ _ reading | deny _ reading | approve _ _ _ _ reading _ | list reading | status _ _ reading
  | save reading _ => some reading
  | awaited _ _ _ | changed => none

/-- The operation approves or denies what has this id. -/
def Resolves (id : String) : QueueOp → Prop
  | deny other _ | approve other _ _ _ _ _ => other = id
  | _ => False

section

variable (env : ServiceEnv) (device : Device) (q : PendingApprovals)

/-- What the operation makes of the queue. -/
def apply : QueueOp → PendingApprovals
  | request candidate fresh reading => (q.create env candidate fresh reading.wall reading.monotonic).2
  | deny id reading => (q.deny env id reading.wall).2
  | approve id signature lifetime provenance reading vault =>
    let purged := q.purgeExpired env reading.wall
    match (purged.approve env id signature lifetime reading.wall provenance).run
        ((PlainVault.ops env.toVaultEnv device).execute env.toVaultEnv device) vault with
    | (.ok (_, q), _) => q
    | (.error _, _) => purged
  | list reading => (q.list env reading.wall reading.monotonic).2
  | status caller id reading => (q.status env caller id reading.wall).2
  | awaited caller id deadline => q.awaited env caller id deadline
  | changed => q.changed
  | save reading vault =>
    match (q.save env reading.wall).run ((PlainVault.ops env.toVaultEnv device).execute env.toVaultEnv device) vault with
    | (.ok q, _) => q
    | (.error _, _) => q

/-- The creation that the operation is. -/
def created : QueueOp → List (Instant × Digest)
  | request candidate fresh reading =>
    if (q.purgeExpired env reading.wall).records.length <
        (q.create env candidate fresh reading.wall reading.monotonic).2.records.length then
      [(reading.monotonic, candidate.caller.fingerprint env.sha256)]
    else []
  | _ => []

end

end QueueOp

namespace PendingApprovals

variable {record : ApprovalRecord} {q' : PendingApprovals} {op : QueueOp} {candidate : ApprovalCandidate}
  {server : PlainVault → Command → VaultResult (Answer × PlainVault)} {ops : List QueueOp}
  {log : List (Instant × Digest)} {last : Instant} {reading : Reading}

section

variable (env : ServiceEnv) (device : Device)

def runOps (q : PendingApprovals) (ops : List QueueOp) : PendingApprovals := ops.foldl (fun q op => op.apply env device q) q

/-- The creations in a run, oldest first. -/
def creations : PendingApprovals → List QueueOp → List (Instant × Digest)
  | _, [] => []
  | q, op :: ops => op.created env q ++ creations (op.apply env device q) ops

end

/-- The readings of the operations do not go back. -/
def Forward (ops : List QueueOp) : Prop := (ops.filterMap QueueOp.reading).Pairwise (·.monotonic ≤ ·.monotonic)

variable {env : ServiceEnv} {device : Device} {q : PendingApprovals}

/-! ## What the functions do to the records -/

theorem records_foldl_pushResolved (resolved : List ResolvedRecord) (q : PendingApprovals) :
    (resolved.foldl pushResolved q).records = q.records ∧
      (resolved.foldl pushResolved q).recentCreations = q.recentCreations := by
  induction resolved generalizing q with
  | nil => exact ⟨rfl, rfl⟩
  | cons record rest ih => exact ih (q.pushResolved record)

theorem purgeExpired_records (env : ServiceEnv) (q : PendingApprovals) (now : UInt64) :
    (q.purgeExpired env now).records = q.records.filter (isWaiting now) ∧
      (q.purgeExpired env now).recentCreations = q.recentCreations := by
  have h := records_foldl_pushResolved (q.records.filterMap (expiredRecord env now))
    { q with records := q.records.filter (isWaiting now) }
  unfold purgeExpired
  dsimp only
  split <;> exact h

theorem map_forget_await (p : ApprovalRecord → Bool) (deadline : Instant) (records : List ApprovalRecord) :
    (await p deadline records).map forget = records.map forget := by
  induction records with
  | nil => rfl
  | cons record rest ih =>
    unfold await
    split
    · rfl
    · rw [map_cons, map_cons, ih]

theorem length_await (p : ApprovalRecord → Bool) (deadline : Instant) (records : List ApprovalRecord) :
    (await p deadline records).length = records.length := by
  simpa using congrArg length (map_forget_await p deadline records)

/-- The ways `create_at` can end, behind the purge. -/
inductive Creation (env : ServiceEnv) (q : PendingApprovals) (candidate : ApprovalCandidate)
    (fresh : Vector UInt8 16 × Digest) (now : UInt64) (monotonicNow : Instant) :
    VaultResult VaultInteractionReference × PendingApprovals → Prop
  | refused (e : VaultError)
    (h : checkedAdd now approvalTtlSeconds = none ∨ candidate.address = none ∨ candidate.application.project = none ∨
      candidate.operation = .clear) : Creation env q candidate fresh now monotonicNow (.error e, q)
  | repeated (existing : ApprovalRecord) (h : q.records.find? (repeats env candidate) = some existing) :
    Creation env q candidate fresh now monotonicNow
      (.ok ⟨existing.summary.id, existing.summary.pendingUntil.getD 0⟩,
        { q with records := await (repeats env candidate) (monotonicNow + requesterGrace) q.records })
  | limited (h : q.records.find? (repeats env candidate) = none) :
    Creation env q candidate fresh now monotonicNow (.error .approvalLimited,
      { q with recentCreations := recent Prod.fst approvalRateWindow monotonicNow q.recentCreations })
  | made (address : SecretAddress) (project : String) (expiresAt : UInt64) (haddress : candidate.address = some address)
    (hproject : candidate.application.project = some project) (hoperation : candidate.operation ≠ .clear)
    (h : q.records.find? (repeats env candidate) = none)
    (hlimit : isLimited env q (recent Prod.fst approvalRateWindow monotonicNow q.recentCreations)
      (candidate.caller.fingerprint env.sha256) = false) :
    Creation env q candidate fresh now monotonicNow
      (.ok ⟨permissionId fresh.1, expiresAt⟩,
        { q.changed with
          records := q.records ++ [newRecord candidate address project fresh now expiresAt monotonicNow]
          unsaved := true
          recentCreations := recent Prod.fst approvalRateWindow monotonicNow q.recentCreations ++
            [(monotonicNow, candidate.caller.fingerprint env.sha256)] })

theorem createPurged_cases (env : ServiceEnv) (q : PendingApprovals) (candidate : ApprovalCandidate) (fresh : Vector UInt8 16 × Digest)
    (now : UInt64) (monotonicNow : Instant) :
    Creation env q candidate fresh now monotonicNow (createPurged env q candidate fresh now monotonicNow) := by
  unfold createPurged
  cases hexpires : checkedAdd now approvalTtlSeconds with
  | none => exact .refused _ (.inl hexpires)
  | some expiresAt =>
    cases haddress : candidate.address with
    | none => exact .refused _ (.inr (.inl haddress))
    | some address =>
      cases hproject : candidate.application.project with
      | none => exact .refused _ (.inr (.inr (.inl hproject)))
      | some project =>
        dsimp only
        split
        next h => exact .refused _ (.inr (.inr (.inr h)))
        next hoperation =>
          split
          next existing h => exact .repeated existing h
          next h =>
            split
            next => exact .limited h
            next hlimit =>
              exact .made address project expiresAt haddress hproject hoperation h (Bool.eq_false_iff.2 hlimit)

/-! ## One operation -/

/-- The records as they are saved. -/
def pending (q : PendingApprovals) : List ApprovalRecord := q.records.map ApprovalRecord.forget

theorem filter_pending (p : ApprovalRecord → Bool) (hp : ∀ record, p record.forget = p record) :
    q.pending.filter p = (q.records.filter p).map forget := by
  rw [pending, filter_map]
  exact congrArg (map _) (filter_congr fun record _ => hp record)

theorem pending_purgeExpired (env : ServiceEnv) (q : PendingApprovals) (now : UInt64) :
    (q.purgeExpired env now).pending = q.pending.filter (isWaiting now) := by
  rw [filter_pending _ fun _ => rfl, pending, (purgeExpired_records env q now).1]

/-- A record that a candidate and another one both repeat makes the candidates alike. -/
theorem repeats_trans {other : ApprovalCandidate} {shared : ApprovalRecord}
    (hshared : repeats env candidate shared = true) (hother : repeats env other shared = true)
    (hrecord : repeats env other record = true) : repeats env candidate record = true := by
  unfold repeats at *
  simp only [Bool.and_eq_true, decide_eq_true_eq] at *
  obtain ⟨⟨⟨⟨⟨⟨hs₁, hs₂⟩, hs₃⟩, hs₄⟩, hs₅⟩, hs₆⟩, hs₇⟩ := hshared
  obtain ⟨⟨⟨⟨⟨⟨ho₁, ho₂⟩, ho₃⟩, ho₄⟩, ho₅⟩, ho₆⟩, ho₇⟩ := hother
  obtain ⟨⟨⟨⟨⟨⟨hr₁, hr₂⟩, hr₃⟩, hr₄⟩, hr₅⟩, hr₆⟩, hr₇⟩ := hrecord
  refine ⟨⟨⟨⟨⟨⟨hr₁.trans (ho₁.symm.trans hs₁), hr₂.trans (ho₂.symm.trans hs₂)⟩, hr₃.trans (ho₃.symm.trans hs₃)⟩,
    hr₄.trans (ho₄.symm.trans hs₄)⟩, hr₅.trans (ho₅.symm.trans hs₅)⟩, hr₆.trans (ho₆.symm.trans hs₆)⟩, ?_⟩
  cases hstate : shared.summary.state with
  | granted => simp [hstate] at hs₇
  | pending =>
    rw [hstate] at hs₇ ho₇
    cases hstate' : record.summary.state with
    | granted => simp [hstate'] at hr₇
    | pending =>
      rw [hstate'] at hr₇
      simp only [decide_eq_true_eq] at hs₇ ho₇ hr₇ ⊢
      exact hr₇.trans (ho₇.symm.trans hs₇)

theorem repeats_newRecord (candidate : ApprovalCandidate) (address : SecretAddress) (project : String)
    (fresh : Vector UInt8 16 × Digest) (now expiresAt : UInt64) (monotonicNow : Instant) :
    repeats env candidate (newRecord candidate address project fresh now expiresAt monotonicNow) = true := by
  simp [repeats, newRecord]

/-- What an operation does to the records and to the log of recent creations. -/
inductive Effect (env : ServiceEnv) (q : PendingApprovals) (op : QueueOp) (q' : PendingApprovals) : Prop
  | kept (h : q'.pending = q.pending) (hrecent : q'.recentCreations = q.recentCreations) (hnone : op.created env q = [])
  | purged (reading : Reading) (hop : op.reading = some reading)
    (h : q'.pending = q.pending.filter (isWaiting reading.wall))
    (hrecent : q'.recentCreations = q.recentCreations ∨
      q'.recentCreations = recent Prod.fst approvalRateWindow reading.monotonic q.recentCreations)
    (hnone : op.created env q = [])
  | resolved (reading : Reading) (hop : op.reading = some reading) (id : String) (hid : op.Resolves id)
    (h : q'.pending = (q.pending.filter (isWaiting reading.wall)).eraseP fun record => record.summary.id = id)
    (hrecent : q'.recentCreations = q.recentCreations) (hnone : op.created env q = [])
  | made (reading : Reading) (hop : op.reading = some reading) (candidate : ApprovalCandidate) (record : ApprovalRecord)
    (h : q'.pending = q.pending.filter (isWaiting reading.wall) ++ [record])
    (hproper : record.Proper) (hcaller : record.caller = candidate.caller) (hrepeats : repeats env candidate record = true)
    (hnew : ∀ other ∈ q.pending.filter (isWaiting reading.wall), repeats env candidate other = false)
    (htotal : (q.pending.filter (isWaiting reading.wall)).length < maxPendingApprovals)
    (hperCaller : ((q.pending.filter (isWaiting reading.wall)).filter
      (ApprovalRecord.isOf env (candidate.caller.fingerprint env.sha256))).length < maxPendingPerCaller)
    (hrecent : q'.recentCreations = recent Prod.fst approvalRateWindow reading.monotonic q.recentCreations ++
      [(reading.monotonic, candidate.caller.fingerprint env.sha256)])
    (hpaced : (recent Prod.fst approvalRateWindow reading.monotonic q.recentCreations).length < maxNewApprovals)
    (hpacedCaller : ((recent Prod.fst approvalRateWindow reading.monotonic q.recentCreations).filter
      fun created => created.2 = candidate.caller.fingerprint env.sha256).length < maxNewApprovalsPerCaller)
    (hone : op.created env q = [(reading.monotonic, candidate.caller.fingerprint env.sha256)])

theorem effect_request (q : PendingApprovals) (candidate : ApprovalCandidate) (fresh : Vector UInt8 16 × Digest)
    (reading : Reading) :
    Effect env q (.request candidate fresh reading) (q.create env candidate fresh reading.wall reading.monotonic).2 := by
  have hpurged := pending_purgeExpired env q reading.wall
  have hrecent := (purgeExpired_records env q reading.wall).2
  have hcases := createPurged_cases env (q.purgeExpired env reading.wall) candidate fresh reading.wall
    reading.monotonic
  -- the purged queue is one that keeps the log of creations
  generalize hq : q.purgeExpired env reading.wall = purged at hpurged hrecent hcases
  generalize hresult : createPurged env purged candidate fresh reading.wall reading.monotonic = result at hcases
  have hcreate : q.create env candidate fresh reading.wall reading.monotonic = result := by
    rw [create, hq, hresult]
  have hcreated : (QueueOp.request candidate fresh reading).created env q =
      if purged.records.length < result.2.records.length then
        [(reading.monotonic, candidate.caller.fingerprint env.sha256)] else [] := by
    rw [QueueOp.created, hcreate, hq]
  rw [hcreate]
  cases hcases with
  | refused e h => exact .purged reading rfl hpurged (.inl hrecent) (by simp [hcreated])
  | repeated existing h =>
    refine .purged reading rfl (Eq.trans ?_ hpurged) (.inl hrecent) (by simp [hcreated, length_await])
    exact map_forget_await _ _ _
  | limited h => exact .purged reading rfl hpurged (.inr (by rw [hrecent])) (by simp [hcreated])
  | made address project expiresAt haddress hproject hoperation h hlimit =>
    simp only [isLimited, Bool.or_eq_false_iff, decide_eq_false_iff_not, Nat.not_le] at hlimit
    obtain ⟨⟨⟨htotal, hperCaller⟩, hpaced⟩, hpacedCaller⟩ := hlimit
    rw [hrecent] at hpaced hpacedCaller
    refine .made reading rfl candidate
      (newRecord candidate address project fresh reading.wall expiresAt reading.monotonic).forget ?_ ?_ rfl
      (repeats_newRecord candidate address project fresh reading.wall expiresAt reading.monotonic) ?_ ?_ ?_
      (by rw [hrecent]) hpaced hpacedCaller (by simp [hcreated])
    · rw [← hpurged]
      exact map_append
    · exact ⟨rfl, by simp [forget, newRecord, haddress],
        by simp [forget, newRecord, hproject], hoperation⟩
    · intro other hother
      rw [← hpurged] at hother
      obtain ⟨record, hrecord, rfl⟩ := List.mem_map.1 hother
      exact Bool.eq_false_iff.2 (List.find?_eq_none.1 h record hrecord)
    · rw [← hpurged, pending, length_map]
      exact htotal
    · rw [← hpurged, filter_pending _ fun _ => rfl, length_map]
      exact hperCaller

theorem take_eq_some {id : String} {rest : PendingApprovals} (h : q.take id = some (record, rest)) :
    rest.pending = q.pending.eraseP (fun record => record.summary.id = id) ∧ rest.recentCreations = q.recentCreations := by
  obtain ⟨found, -, hpair⟩ := Option.map_eq_some_iff.1 h
  cases hpair
  refine ⟨?_, rfl⟩
  show (q.records.eraseP _).map _ = (q.records.map _).eraseP _
  rw [eraseP_map]
  rfl

theorem run_lift {α : Type} (result : VaultResult α)
    (v : PlainVault) : (liftM result : StoreProgram α).run server v = (result, v) := rfl

/-- An approval that gets through takes the record out. -/
theorem run_approve_eq_ok {id : String} {signature : Bytes} {lifetime : ApprovedLifetime} {now : UInt64}
    {provenance : Provenance} {v v' : PlainVault} {approved : Approved}
    (h : (q.approve env id signature lifetime now provenance).run server v = (.ok (approved, q'), v')) :
    q'.pending = q.pending.eraseP (fun record => record.summary.id = id) ∧ q'.recentCreations = q.recentCreations := by
  simp only [approve, Program.run_bind_eq_ok] at h
  obtain ⟨⟨record, rest⟩, w, htake, approved', w', -, done, w'', -, h⟩ := h
  rw [run_lift, Prod.mk.injEq, ofOption_eq_ok] at htake
  obtain ⟨hpending, hrecent⟩ := take_eq_some htake.1
  cases h
  exact ⟨hpending, hrecent⟩

/-- **What every operation does.** -/
theorem effect_apply (env : ServiceEnv) (device : Device) (op : QueueOp) (q : PendingApprovals) : Effect env q op (op.apply env device q) := by
  cases op with
  | request candidate fresh reading => exact effect_request q candidate fresh reading
  | deny id reading =>
    have hpurged := pending_purgeExpired env q reading.wall
    have hrecent := (purgeExpired_records env q reading.wall).2
    simp only [QueueOp.apply, deny]
    cases htake : (q.purgeExpired env reading.wall).take id with
    | none => exact .purged reading rfl hpurged (.inl hrecent) rfl
    | some found =>
      obtain ⟨record, rest⟩ := found
      obtain ⟨hpending, hsame⟩ := take_eq_some htake
      rw [hpurged] at hpending
      exact .resolved reading rfl id rfl hpending (hsame.trans hrecent) rfl
  | approve id signature lifetime provenance reading vault =>
    have hpurged := pending_purgeExpired env q reading.wall
    have hrecent := (purgeExpired_records env q reading.wall).2
    simp only [QueueOp.apply]
    split
    next approved q' v' hrun =>
      obtain ⟨hpending, hsame⟩ := run_approve_eq_ok hrun
      rw [hpurged] at hpending
      exact .resolved reading rfl id rfl hpending (hsame.trans hrecent) rfl
    next => exact .purged reading rfl hpurged (.inl hrecent) rfl
  | list reading =>
    exact .purged reading rfl (pending_purgeExpired env q reading.wall) (.inl (purgeExpired_records env q reading.wall).2) rfl
  | status caller id reading =>
    have hstatus : (q.status env caller id reading.wall).2 = q.purgeExpired env reading.wall := by
      unfold status
      dsimp only
      split <;> rfl
    rw [QueueOp.apply, hstatus]
    exact .purged reading rfl (pending_purgeExpired env q reading.wall) (.inl (purgeExpired_records env q reading.wall).2) rfl
  | awaited caller id deadline => exact .kept (map_forget_await _ _ _) rfl rfl
  | changed => exact .kept rfl rfl rfl
  | save reading vault =>
    simp only [QueueOp.apply]
    split
    next q' v' hrun =>
      unfold save at hrun
      split at hrun
      · simp only [Program.run_bind_eq_ok] at hrun
        obtain ⟨address, w, -, done, w', -, hrun⟩ := hrun
        cases hrun
        exact .kept rfl rfl rfl
      · cases hrun
        exact .kept rfl rfl rfl
    next => exact .kept rfl rfl rfl

/-! ## Bounds on the records -/

/-- The records are within the bounds, and no two of them answer the same request. -/
structure Within (env : ServiceEnv) (records : List ApprovalRecord) : Prop where
  total : records.length ≤ maxPendingApprovals
  perCaller : ∀ fingerprint, (records.filter (ApprovalRecord.isOf env fingerprint)).length ≤ maxPendingPerCaller
  distinct : records.Pairwise fun record other => ∀ candidate, repeats env candidate record = true →
    repeats env candidate other = false
  proper : ∀ record ∈ records, record.Proper

theorem Within.sublist {records fewer : List ApprovalRecord} (h : Within env records) (hsub : fewer.Sublist records) :
    Within env fewer where
  total := hsub.length_le.trans h.total
  perCaller fingerprint := (hsub.filter _).length_le.trans (h.perCaller fingerprint)
  distinct := h.distinct.sublist hsub
  proper record hrecord := h.proper record (hsub.mem hrecord)

theorem Within.concat {records : List ApprovalRecord} {record : ApprovalRecord} {candidate : ApprovalCandidate}
    (h : Within env records) (hproper : record.Proper) (hcaller : record.caller = candidate.caller)
    (hrepeats : repeats env candidate record = true) (hnew : ∀ other ∈ records, repeats env candidate other = false)
    (htotal : records.length < maxPendingApprovals)
    (hperCaller : (records.filter (isOf env (candidate.caller.fingerprint env.sha256))).length <
      maxPendingPerCaller) :
    Within env (records ++ [record]) where
  total := by
    rw [length_append, length_singleton]
    omega
  perCaller fingerprint := by
    rw [filter_append, length_append]
    by_cases hof : candidate.caller.fingerprint env.sha256 = fingerprint
    · subst hof
      have hone : ([record].filter (isOf env (candidate.caller.fingerprint env.sha256))).length ≤ 1 :=
        length_filter_le ..
      omega
    · have hnone : [record].filter (isOf env fingerprint) = [] := by
        simp [isOf, hcaller, hof]
      rw [hnone, length_nil]
      exact h.perCaller fingerprint
  distinct := by
    refine List.pairwise_append.2 ⟨h.distinct, pairwise_singleton .., fun other hother made hmade c hc => ?_⟩
    obtain rfl := List.mem_singleton.1 hmade
    cases hc' : repeats env c made with
    | false => rfl
    | true =>
      have := repeats_trans hrepeats hc' hc
      rw [hnew other hother] at this
      cases this
  proper made hmade := (List.mem_append.1 hmade).elim (h.proper made) fun hmade => by
    obtain rfl := List.mem_singleton.1 hmade
    exact hproper

theorem Within.effect (h : Within env q.pending) (he : Effect env q op q') : Within env q'.pending := by
  cases he with
  | kept hpending => rwa [hpending]
  | purged reading _ hpending =>
    rw [hpending]
    exact h.sublist filter_sublist
  | resolved reading _ id _ hpending =>
    rw [hpending]
    exact h.sublist (List.eraseP_sublist.trans filter_sublist)
  | made reading _ candidate record hpending hproper hcaller hrepeats hnew htotal hperCaller =>
    rw [hpending]
    exact (h.sublist filter_sublist).concat hproper hcaller hrepeats hnew htotal hperCaller

theorem Within.run (h : Within env q.pending) : Within env (runOps env device q ops).pending := by
  induction ops generalizing q with
  | nil => exact h
  | cons op ops ih => exact ih (h.effect (effect_apply env device op q))

/-- The log of recent creations knows all that are recent, and the creations are paced. -/
structure Lived (env : ServiceEnv) (q : PendingApprovals) (log : List (Instant × Digest)) (last : Instant) : Prop where
  tracked : ∀ now, last ≤ now → recent Prod.fst approvalRateWindow now q.recentCreations =
    recent Prod.fst approvalRateWindow now log
  paced : Paced Prod.fst approvalRateWindow maxNewApprovals log
  pacedCaller : ∀ fingerprint, Paced Prod.fst approvalRateWindow maxNewApprovalsPerCaller
    (log.filter fun created => created.2 = fingerprint)

theorem Lived.start (env : ServiceEnv) {start : PendingApprovals} (h : start.recentCreations = []) : Lived env start [] 0 where
  tracked _ _ := by rw [h]
  paced := .nil
  pacedCaller _ := .nil

theorem Lived.effect
    (h : Lived env q log last) (he : Effect env q op q') (hclock : ∀ reading ∈ op.reading, last ≤ reading.monotonic) :
    Lived env q' (log ++ op.created env q) ((op.reading.map Reading.monotonic).getD last) := by
  have hlast : last ≤ (op.reading.map Reading.monotonic).getD last := by
    cases hop : op.reading with
    | none => exact le_rfl
    | some reading => exact hclock reading hop
  cases he with
  | kept _ hrecent hnone =>
    rw [hnone, append_nil]
    refine ⟨fun now hnow => ?_, h.paced, h.pacedCaller⟩
    rw [hrecent]
    exact h.tracked now (hlast.trans hnow)
  | purged reading hop _ hrecent hnone =>
    rw [hop] at hlast ⊢
    rw [hnone, append_nil]
    refine ⟨fun now hnow => ?_, h.paced, h.pacedCaller⟩
    change reading.monotonic ≤ now at hnow
    rcases hrecent with hrecent | hrecent
    · rw [hrecent]
      exact h.tracked now (hlast.trans hnow)
    · rw [hrecent, recent_recent hnow]
      exact h.tracked now (hlast.trans hnow)
  | resolved reading hop id _ _ hrecent hnone =>
    rw [hnone, append_nil]
    refine ⟨fun now hnow => ?_, h.paced, h.pacedCaller⟩
    rw [hrecent]
    exact h.tracked now (hlast.trans hnow)
  | made reading hop candidate record _ _ _ _ _ _ _ hrecent hpaced hpacedCaller hone =>
    rw [hop] at hlast ⊢
    change last ≤ reading.monotonic at hlast
    rw [h.tracked _ hlast] at hpaced hpacedCaller
    rw [hone]
    refine ⟨fun now hnow => ?_, .concat h.paced hpaced, fun fingerprint => ?_⟩
    · change reading.monotonic ≤ now at hnow
      rw [hrecent, recent_append, recent_append, recent_recent hnow, h.tracked now (hlast.trans hnow)]
    · rw [filter_append]
      by_cases hof : candidate.caller.fingerprint env.sha256 = fingerprint
      · subst hof
        rw [filter_cons_of_pos (by simp), filter_nil]
        refine .concat (h.pacedCaller _) ?_
        rwa [recent_filter]
      · rw [filter_cons_of_neg (by simpa using hof), filter_nil, append_nil]
        exact h.pacedCaller fingerprint

theorem Lived.run (h : Lived env q log last)
    (hlast : ∀ reading ∈ ops.filterMap QueueOp.reading, last ≤ reading.monotonic) (hforward : Forward ops) :
    ∃ last', Lived env (runOps env device q ops) (log ++ creations env device q ops) last' := by
  induction ops generalizing q log last with
  | nil => exact ⟨last, by simpa [runOps, creations] using h⟩
  | cons op ops ih =>
    have hclock : ∀ reading ∈ op.reading, last ≤ reading.monotonic := by
      intro reading hreading
      exact hlast reading (List.mem_filterMap.2 ⟨op, mem_cons_self, hreading⟩)
    have hstep := h.effect (effect_apply env device op q) hclock
    rw [creations, ← append_assoc]
    unfold Forward at hforward
    cases hop : op.reading with
    | none =>
      rw [hop] at hstep
      rw [filterMap_cons_none hop] at hlast hforward
      exact ih hstep hlast hforward
    | some reading =>
      rw [hop] at hstep
      rw [filterMap_cons_some hop, pairwise_cons] at hforward
      exact ih hstep hforward.1 hforward.2

/-! ## The fate of a record -/

end PendingApprovals

end FactorSeal
