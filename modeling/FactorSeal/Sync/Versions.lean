import FactorSeal.Store.Records
import FactorSeal.Sync.Instance
import FactorSeal.Sync.Run
import FactorSeal.Vault.Versions

/-! # Versions and history over a run

The history log a document keeps is a trail to the versions of its records (`PlainDocument.Chained`): the log is read with
the document and written with it, and every command queues entries that lead from the versions it finds to those it
leaves. A command that fails leaves both as they were, since it worked on a copy. So in the log of every stored document
an entry continues the one before it of its address, and the newest entry has the version of the record. -/

namespace FactorSeal

open Wire Except Std ExtMap Link SecretDocument HistoryLog

variable {expected : Option Bytes} {context : MutationContext} {env : VaultEnv} {kind : DocumentKind} {log : HistoryLog}

/-! ## Sync commands -/

namespace SecretDocument

variable {env : SyncEnv} {d d' : SecretDocument} {state : PersonalSyncState env.toPairingEnv} {draw draw' : Nat}
  {mutation : DocumentMutation}

theorem quiet_saveSyncState (h : d.saveSyncState env state = .ok d') : Quiet d d' := by
  obtain ⟨-, rfl⟩ := saveSyncState_eq_ok h
  exact ⟨rfl, rfl, rfl, rfl, rfl⟩

theorem traces_materializeSyncValue {id : String} {values : List (Option PersonalSecret)}
    (h : d.materializeSyncValue env draw id values context = .ok (d', draw')) : Traces env.toVaultEnv d d' := by
  simp only [materializeSyncValue, bind_eq_ok] at h
  obtain ⟨address, -, h⟩ := h
  split at h
  · simp only [bind_eq_ok] at h
    obtain ⟨bytes, -, h⟩ := h
    exact traces_putValueUncommitted h
  · simp only [bind_eq_ok] at h
    obtain ⟨⟨changed, removed⟩, hdelete, h⟩ := h
    cases h
    exact traces_deleteValueUncommitted rfl hdelete

theorem commits_updateSyncState {replicas : ReplicaCatalog}
    (h : d.updateSyncState env state replicas = .ok (mutation, d')) : Commits env.toVaultEnv d mutation := by
  simp only [updateSyncState, bind_eq_ok] at h
  obtain ⟨saved, hsaved, stored, hstored, hfinish⟩ := h
  exact ⟨stored, d', (quiet_saveSyncState hsaved).traces.trans (quiet_savePersonalReplicas hstored).traces, hfinish⟩

theorem commits_receivePersonal {packet : PacketId} {update : PersonalUpdate} {outcome : ReceiveOutcome}
    (h : d.receivePersonal env draw packet update context = .ok (outcome, some (mutation, d'), draw')) :
    Commits env.toVaultEnv d mutation := by
  obtain ⟨state, -, hnone | ⟨changed, values, receipt, stored, made, after, hmutation, hsome⟩⟩ := receivePersonal_eq_ok h
  · cases hnone
  · cases hsome
    obtain ⟨written, saved, kept, hwritten, hsaved, hkept, hfinish⟩ := receiveMutation_eq_ok hmutation
    have htraces : Traces env.toVaultEnv d written := by
      rcases hwritten with ⟨-, hwritten⟩ | ⟨-, rfl⟩
      · exact traces_materializeSyncValue hwritten
      · exact .refl _
    exact ⟨kept, d', (htraces.trans (quiet_saveSyncState hsaved).traces).trans (quiet_savePersonalReplicas hkept).traces,
      hfinish⟩

theorem commits_resolvePersonal {id : String} {expected : ReplicaHeads} {item : Option PersonalSecret}
    (h : d.resolvePersonal env draw id expected item context = .ok (mutation, d', draw')) :
    Commits env.toVaultEnv d mutation := by
  obtain ⟨values, stored, written, kept, hwritten, hkept, hfinish⟩ := resolvePersonal_eq_ok h
  exact ⟨kept, d', (traces_materializeSyncValue hwritten).trans (quiet_savePersonalReplicas hkept).traces, hfinish⟩

theorem commits_personalSync {device : Device} {now : UInt64} {command : SyncCommand env}
    {reply : SyncReply env.toPairingEnv}
    (h : d.personalSync env device draw now command = .ok (reply, some (mutation, d'), draw')) :
    Commits env.toVaultEnv d mutation := by
  simp only [personalSync, bind_eq_ok] at h
  obtain ⟨state, -, ⟨⟩, -, replicas, -, ⟨work, draw₁⟩, hwork, h⟩ := h
  cases syncWork_eq_ok hwork with
  | answered reply => cases h
  | saved reply replicas _ =>
    simp only [bind_eq_ok] at h
    obtain ⟨saved, hsaved, h⟩ := h
    cases h
    exact commits_updateSyncState hsaved
  | received reply hreceive =>
    cases h
    exact commits_receivePersonal hreceive
  | resolved reply hresolve =>
    cases h
    exact commits_resolvePersonal hresolve

end SecretDocument

/-! ## One transaction -/

/-- The log beside the document is a trail to the versions of its records. -/
def PlainDocument.Chained (env : VaultEnv) (device : Device) (p : PlainDocument) : Prop :=
  ∃ d log, SecretDocument.load env p.snapshot device.actorId p.scope (some d.partition) = .ok d ∧
    p.history = env.historyJson.encode log ∧ log.WellFormed p.scope d.partition ∧ log.Follows env d.versions

namespace HistoryLog

theorem load_of_wellFormed {json : Codec HistoryLog} {partition : Bytes}
    (h : log.WellFormed kind partition) : load json (json.encode log) kind (some partition) = .ok log := by
  rw [load, json.decode_encode]
  simp only [validate_of_wellFormed h fun p hp => (Option.mem_some.1 hp).symm, ok_bind]
  rfl

theorem migrateAddresses_nil (log : HistoryLog) : log.migrateAddresses [] = log := by
  have hsame : ∀ e : HistoryEntry, migrateEntry [] e = e := fun e => rfl
  rw [migrateAddresses, List.map_congr_left fun e _ => hsame e, List.map_id']

end HistoryLog

theorem SecretDocument.pending_of_load {snapshot actor : Bytes}
    {d : SecretDocument} (h : load env snapshot actor kind expected = .ok d) : d.pending = [] := by
  unfold load at h
  split at h
  next => cases h
  next root hroot =>
    simp only [bind_eq_ok] at h
    obtain ⟨partition, -, ⟨⟩, -, entries, -, h⟩ := h
    cases h
    rfl

namespace PlainVault

variable {env : VaultEnv} {device : Device} {v v' : PlainVault} {s : DocumentKind} {now : UInt64}

/-- The log of every document is a trail to its versions. -/
def Chained (env : VaultEnv) (device : Device) (v : PlainVault) : Prop :=
  ∀ (id : DocumentId) (p : PlainDocument), v.documents[id]? = some p → p.Chained env device

/-- The work of a command commits only what it has traced from the loaded document, or from a new one. -/
def Traced {α : Type} (env : VaultEnv) (device : Device) (s : DocumentKind) (expected : Option Bytes)
    (work : Option SecretDocument → Nat → VaultResult (Outcome α)) : Prop :=
  ∀ before draws outcome, (∀ d ∈ before, ∀ p ∈ expected, d.partition = p) → work before draws = .ok outcome →
    ∀ mutation ∈ outcome.mutation,
    ∃ start, (before = some start ∨ before = none ∧ ∃ p, start = SecretDocument.new device.actorId s p) ∧
      SecretDocument.Commits env start mutation

/-- What a commit makes of a document and its log. -/
theorem chained_next {current : Option PlainDocument} {mutation : DocumentMutation}
    {start : SecretDocument} {p : PlainDocument}
    (hkind : start.kind = s) (hactor : start.actor = device.actorId) (hpending : start.pending = [])
    (hcurrent : ∀ q ∈ current, q.Chained env device ∧ q.scope = s ∧
      load env q.snapshot device.actorId s (some start.partition) = .ok start)
    (hcommits : SecretDocument.Commits env start mutation)
    (h : PlainDocument.next env s current mutation context = .ok p) : p.Chained env device := by
  obtain ⟨changed, after, htraces, hfinish⟩ := hcommits
  obtain ⟨queued, hqueued, hshaped, hleads⟩ := htraces.queued
  obtain ⟨deadline, hproject, -, hpartition⟩ := finishMutation_eq_ok hfinish
  obtain ⟨hhistory, hmigrations, hversions⟩ := versions_finishMutation hfinish
  have halike := alike_project hproject
  have hreload := load_finishMutation hfinish
  rw [halike.actor, htraces.actor, hactor, halike.kind, htraces.kind, hkind] at hreload
  simp only [PlainDocument.next, bind_eq_ok, ensure_eq_ok] at h
  obtain ⟨⟨⟩, -, carried, hcarried, log', hrecord, column, -, g, -, e, -, h⟩ := h
  cases h
  -- the log that is carried forward leads to the versions the work has found
  have hbefore : carried.WellFormed s start.partition ∧ carried.Follows env start.versions := by
    cases current with
    | none =>
      cases hcarried
      rw [hpartition, htraces.partition]
      exact ⟨wellFormed_new _ _, fun e he => (by cases he), start.versions, rfl⟩
    | some q =>
      obtain ⟨⟨d, log, hload, hlog, hwell, hfollows⟩, rfl, hstart⟩ := hcurrent q rfl
      obtain rfl := (load_eq_ok hload).2.2.2.2 hstart
      rw [PlainDocument.carriedHistory, hlog, hpartition, htraces.partition, load_of_wellFormed hwell] at hcarried
      cases hcarried
      exact ⟨hwell, hfollows⟩
  rw [hmigrations, migrateAddresses_nil] at hrecord
  rw [hpending, List.nil_append] at hqueued
  rw [hhistory, hqueued] at hrecord
  refine ⟨after, log', hreload, rfl, ?_, ?_⟩
  · rw [halike.partition, htraces.partition]
    exact wellFormed_record hbefore.1 hrecord
  · rw [hversions]
    exact hbefore.2.recordBatch (b := ⟨queued, context.now, context.provenance, context.deviceKeyId⟩) hshaped hleads hrecord

theorem Chained.transact {α : Type} {id : DocumentId}
    {work : Option SecretDocument → Nat → VaultResult (Outcome α)} {a : α}
    (hv : v.Chained env device) (hwork : Traced env device s expected work)
    (h : v.transact env device id s expected context work = .ok (a, v')) : v'.Chained env device := by
  simp only [PlainVault.transact, bind_eq_ok] at h
  obtain ⟨loaded, hloaded, outcome, houtcome, h⟩ := h
  unfold finish at h
  split at h
  next hnone =>
    cases h
    exact hv
  next mutation hmutation =>
    simp only [commit, bind_eq_ok, ensure_eq_ok] at h
    obtain ⟨w, ⟨p, hnext, ⟨⟩, -, hw⟩, h⟩ := h
    cases hw
    cases h
    obtain ⟨start, hstart, hcommits⟩ := hwork _ _ _ (partition_of_loaded hloaded) houtcome mutation hmutation
    have hp : p.Chained env device := by
      rcases loaded_eq_ok hloaded with ⟨-, rfl⟩ | ⟨q, d, hq, rfl, hscope, hload⟩
      · rcases hstart with hstart | ⟨-, partition, rfl⟩
        · cases hstart
        · exact chained_next rfl rfl rfl (by rintro q ⟨⟩) hcommits hnext
      · rcases hstart with hstart | ⟨hstart, -⟩
        · cases hstart
          obtain ⟨hkind, hactor, -, hown, -⟩ := load_eq_ok hload
          refine chained_next hkind hactor (pending_of_load hload) ?_ hcommits hnext
          rintro q' ⟨⟩
          exact ⟨hv id q hq, hscope, hown⟩
        · cases hstart
    intro j q hq
    rw [getElem?_insert_iff] at hq
    split at hq
    · cases hq
      exact hp
    · exact hv j q hq

/-! ## Commands -/

theorem Works.traced {α : Type} {P : SecretAddress → Bytes → Option UInt64 → Prop}
    {work : Option SecretDocument → Nat → VaultResult (Outcome α)} (h : Works env device s expected P work) :
    Traced env device s expected work := by
  intro before draws outcome hpartition hwork mutation hmutation
  obtain ⟨start, changed, after, hstart, -, hchanges, hfinish⟩ := h before draws outcome hpartition hwork mutation hmutation
  exact ⟨start, hstart, changed, after, hchanges.traces, hfinish⟩

theorem traced_personalSyncBody {env : SyncEnv} {command : SyncCommand env} :
    Traced env.toVaultEnv device .localKeyring (some personalSecretNamespace) (personalSyncBody env device now command) := by
  intro before draws outcome _ h mutation hmutation
  simp only [personalSyncBody, bind_eq_ok] at h
  obtain ⟨⟨reply, change, draws'⟩, hsync, h⟩ := h
  cases h
  obtain ⟨⟨made, after⟩, rfl, hmade⟩ := Option.map_eq_some_iff.1 (Option.mem_def.1 hmutation)
  cases hmade
  refine ⟨_, ?_, commits_personalSync hsync⟩
  cases before with
  | none => exact .inr ⟨rfl, _, rfl⟩
  | some d => exact .inl rfl

theorem Chained.execute {command : Command} {a : Answer} (hv : v.Chained env device)
    (h : (ops env device).execute env device v command = .ok (a, v')) : v'.Chained env device := by
  refine execute_invariant (Q := Chained env device) ?_ hv h
  intro α w w' id s expected context work b P hwork _ hw htransact
  exact hw.transact hwork.traced htransact

end PlainVault

/-! ## Runs -/

/-- The commands of clients and of the sync service. -/
inductive StoreEvent (env : SyncEnv) where
  | command (command : Command)
  | sync (now : UInt64) (command : SyncCommand env)

namespace PlainVault

def handleEvent (env : SyncEnv) (device : Device) (v : PlainVault) : StoreEvent env → VaultResult PlainVault
  | .command command => ((ops env.toVaultEnv device).execute env.toVaultEnv device v command).map Prod.snd
  | .sync now command => ((ops env.toVaultEnv device).personalSync env device v now command).map Prod.snd

/-- A vault under the commands of clients and of the sync service; one that fails is rolled back. -/
def process (env : SyncEnv) (device : Device) : Process PlainVault (StoreEvent env) VaultError := ⟨handleEvent env device⟩

theorem chained_run (env : SyncEnv) (device : Device) (events : List (StoreEvent env)) :
    ((process env device).run create events).Chained env.toVaultEnv device := by
  refine Process.run_invariant (K := fun _ _ => True) ?_ ?_ (fun _ _ _ _ => trivial)
  · intro id p hp
    rw [create, ExtTreeMap.getElem?_empty] at hp
    cases hp
  · intro v event v' hv _ hstep
    cases event with
    | command command =>
      obtain ⟨⟨a, w⟩, hexecute, rfl⟩ := map_eq_ok.1 hstep
      exact hv.execute hexecute
    | sync now command =>
      obtain ⟨⟨a, w⟩, hsync, rfl⟩ := map_eq_ok.1 hstep
      exact hv.transact traced_personalSyncBody hsync

end PlainVault

/-- What a log says of one address after another of its entries, and of the record that is there now. -/
structure HistoryLog.Continues (env : VaultEnv) (log : HistoryLog) (d : SecretDocument) : Prop where
  consecutive : ∀ earlier e between e' later, log.entries = earlier ++ e :: (between ++ e' :: later) →
    e'.address = e.address → (∀ x ∈ between, x.address ≠ e.address) →
    e'.previousVersionId = e.versionId ∧ (e'.previousVersionId = none ↔ e.operation.isRemoval = true)
  unchanged : ∀ e ∈ log.entries, e.operation = .put false → e.versionId = e.previousVersionId
  newest : ∀ earlier e later, log.entries = earlier ++ e :: later → (∀ x ∈ later, x.address ≠ e.address) →
    (d.records (e.address.storageKey env.sha256)).head?.map SecretRecord.versionId = e.versionId

/-- The addresses of the log have storage keys of their own. -/
theorem HistoryLog.Follows.continues {d : SecretDocument} (h : log.Follows env d.versions)
    (hkeys : Set.InjOn (fun a : SecretAddress => a.storageKey env.sha256) {a | ∃ e ∈ log.entries, e.address = a}) :
    log.Continues env d := by
  obtain ⟨hshaped, start, hleads⟩ := h
  have hkey : ∀ e ∈ log.entries, ∀ x ∈ log.entries, x.address ≠ e.address →
      (HistoryEntry.link env x).key ≠ (HistoryEntry.link env e).key := by
    intro e he x hx hne heq
    exact hne (hkeys ⟨x, hx, rfl⟩ ⟨e, he, rfl⟩ heq)
  refine ⟨?_, ?_, ?_⟩
  · intro earlier e between e' later hentries haddress hbetween
    have hmem : ∀ x ∈ between, x ∈ log.entries := fun x hx => by rw [hentries]; simp [hx]
    have he : e ∈ log.entries := by rw [hentries]; simp
    rw [hentries] at hleads
    simp only [List.map_append, List.map_cons] at hleads
    have hprevious : e'.previousVersionId = e.versionId := by
      refine hleads.consecutive ?_ ?_
      · show e'.address.storageKey env.sha256 = e.address.storageKey env.sha256
        rw [haddress]
      · intro link hlink
        obtain ⟨x, hx, rfl⟩ := List.mem_map.1 hlink
        exact hkey e he x (hmem x hx) (hbetween x hx)
    exact ⟨hprevious, by rw [hprevious]; exact (hshaped e he).eq_none_iff⟩
  · intro e he hput
    have := hshaped e he
    rw [hput] at this
    exact this.2 rfl
  · intro earlier e later hentries hlater
    have hmem : ∀ x ∈ later, x ∈ log.entries := fun x hx => by rw [hentries]; simp [hx]
    have he : e ∈ log.entries := by rw [hentries]; simp
    rw [hentries] at hleads
    simp only [List.map_append, List.map_cons] at hleads
    refine hleads.newest ?_
    intro link hlink
    obtain ⟨x, hx, rfl⟩ := List.mem_map.1 hlink
    exact hkey e he x (hmem x hx) (hlater x hx)

/-- **In every run, the log of a stored document continues itself and ends with the versions of its records.** -/
theorem run_log_continues (env : SyncEnv) (device : Device) (events : List (StoreEvent env)) {id : DocumentId}
    {p : PlainDocument} (hp : ((PlainVault.process env device).run PlainVault.create events).documents[id]? = some p) :
    ∃ d log, SecretDocument.load env.toVaultEnv p.snapshot device.actorId p.scope (some d.partition) = .ok d ∧
      HistoryLog.load env.historyJson p.history p.scope (some d.partition) = .ok log ∧
      (Set.InjOn (fun a : SecretAddress => a.storageKey env.sha256) {a | ∃ e ∈ log.entries, e.address = a} →
        log.Continues env.toVaultEnv d) := by
  obtain ⟨d, log, hload, hhistory, hwell, hfollows⟩ := PlainVault.chained_run env device events id p hp
  refine ⟨d, log, hload, ?_, fun hkeys => hfollows.continues hkeys⟩
  rw [hhistory]
  exact load_of_wellFormed hwell

namespace Reference

def apiKey : SecretAddress := .secretSpec (.convention "app" "default" "API_KEY")

/-- A first value; a batch that writes, writes the same again, deletes and writes once more; a batch that is refused. -/
def rewrites : List (StoreEvent referenceSync) :=
  [.command (.put .secretSpecProject (utf8 "app") apiKey [1] none .redacted 5),
    .command (.mutate .secretSpecProject (utf8 "app")
      [.put apiKey [2] none, .put apiKey [2] none, .delete apiKey, .put apiKey [3] none] .redacted 6),
    .command (.mutate .secretSpecProject (utf8 "app") [.delete apiKey, .put apiKey [4] (some 0xffffffffffffffff)]
      .redacted 7)]

def rewritten : PlainVault := (PlainVault.process referenceSync thisDevice).run PlainVault.create rewrites

def appId : DocumentId := referenceSync.documentId thisDevice .secretSpecProject (utf8 "app")

/-- The addresses and operations of the log. -/
def rewrittenEntries : Option (List (SecretAddress × HistoryOperation)) := do
  let p ← rewritten.documents[appId]?
  let log ← (referenceSync.historyJson.decode p.history).toOption
  return log.entries.map fun e => (e.address, e.operation)

theorem rewrittenEntries_eq : rewrittenEntries = some [(apiKey, .put true), (apiKey, .put true), (apiKey, .put false),
    (apiKey, .delete), (apiKey, .put true)] := by
  decide +kernel

end Reference

theorem HistoryLog.decode_of_load {json : Codec HistoryLog} {bytes : Bytes}
    (h : load json bytes kind expected = .ok log) : json.decode bytes = .ok log := by
  unfold load at h
  split at h
  next => cases h
  next decoded hdecoded =>
    rw [bind_eq_ok] at h
    obtain ⟨⟨⟩, -, h⟩ := h
    cases h
    exact hdecoded

open Reference in
theorem run_log_continues_rewritten :
    ∃ (p : PlainDocument) (d : SecretDocument) (log : HistoryLog),
      ((PlainVault.process referenceSync thisDevice).run PlainVault.create rewrites).documents[appId]? = some p ∧
      SecretDocument.load referenceSync.toVaultEnv p.snapshot thisDevice.actorId p.scope (some d.partition) = .ok d ∧
      log.entries.map HistoryEntry.operation = [.put true, .put true, .put false, .delete, .put true] ∧
      log.Continues referenceSync.toVaultEnv d := by
  have hentries := rewrittenEntries_eq
  unfold rewrittenEntries at hentries
  obtain ⟨p, hp, hentries⟩ := Option.bind_eq_some_iff.1 hentries
  obtain ⟨d, log, hload, hlog, hcontinues⟩ := run_log_continues referenceSync thisDevice rewrites hp
  rw [decode_of_load hlog] at hentries
  have hpairs : log.entries.map (fun e => (e.address, e.operation)) = [(apiKey, .put true), (apiKey, .put true),
      (apiKey, .put false), (apiKey, .delete), (apiKey, .put true)] := Option.some.inj hentries
  refine ⟨p, d, log, hp, hload, ?_, hcontinues ?_⟩
  · have hsnd := congrArg (List.map Prod.snd) hpairs
    rw [List.map_map] at hsnd
    exact hsnd
  · have haddress : ∀ e ∈ log.entries, e.address = apiKey := by
      intro e he
      have : (e.address, e.operation) ∈ log.entries.map fun e => (e.address, e.operation) := List.mem_map_of_mem he
      rw [hpairs] at this
      simp at this
      tauto
    rintro a ⟨e, he, rfl⟩ b ⟨e', he', rfl⟩ -
    rw [haddress e he, haddress e' he']

end FactorSeal
