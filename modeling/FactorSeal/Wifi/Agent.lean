import FactorSeal.Lib.Run
import FactorSeal.Wifi.Profile
import Mathlib.Logic.Function.Basic

/-! # The Wi-Fi secret agent (vault/secret_service/network_manager.rs, network_manager/migration.rs)

The agent runs on one thread, so that a call goes from one of its awaits to the next without interruption. Only its
requests to the vault are handed to other threads (`call`, network_manager.rs:137-149): once handed over they are carried
out, whether or not the call still waits for them. A call that is canceled or times out is dropped where it stands, and
what it holds is released; a request it has handed over stays (`State.requests`).

Each event below is one such stretch of a call, a request that the vault carries out or refuses, or an update that
NetworkManager applies. Everything that makes a call fail from outside (a lost bus, a timeout, a cancellation, a sealed
vault) is `fail`.

| model | source |
|---|---|
| `Call.get`, `.save`, `.delete` | `get_secrets` and `get`, `save_secrets`, `delete_secrets` (network_manager.rs:262-351, 367-549) |
| `Call.migrate` | `migrate_connection` and `migrate_profile` (migration.rs:163-211, 363-466) |
| `State.writer` | `wifi_writes` |
| `State.migrations`, `.generation` | `wifi_migrations`, `wifi_generation` |
| `State.pending` | `Requests::pending` |
| `State.contents` | the Wi-Fi document of the vault |
| `State.profiles`, `.legacy` | NetworkManager's profiles, the previous keyring |
-/

namespace FactorSeal.Wifi

open Wire

/-! ## The vault -/

/-- The values in the vault, each with the number of the call that stored it. -/
abbrev Contents := WireSecretAddress → Option (Bytes × Nat)

def Contents.mutate (author : Nat) (contents : Contents) : VaultMutation → Contents
  | .check _ _ => contents
  | .put address value _ => Function.update contents address (some (value, author))
  | .delete address => Function.update contents address none

/-- A batch that was handed to the vault. -/
structure Request where
  owner : Nat
  mutations : List VaultMutation

/-! ## Calls -/

inductive Call where
  | get (path settingName : String) (profile : Profile) (flags : GetSecretsFlags)
  | save (profile : Profile)
  | delete (path uuid : String)
  | migrate (uuid : String)

def Call.uuid : Call → String
  | get _ _ profile _ | save profile => profile.uuid
  | delete _ uuid | migrate uuid => uuid

/-- A credential that a migration has collected (`Copy`); the paths are those of its items in the previous keyring. -/
structure Copied where
  property : Property
  value : Bytes
  legacyPaths : List Nat
deriving DecidableEq, Repr

inductive Phase where
  /-- The generation was read. -/
  | began
  /-- A get found no migration at work. -/
  | admitted
  /-- A get can be canceled. -/
  | registered
  /-- The writes are known, the lock is not held. -/
  | ready (writes : List VaultMutation)
  /-- The lock is held; with the answer of the vault once there is one. -/
  | writing (answer : Option Bool)
  /-- A migration holds the lock and its guard. -/
  | guarded
  | collecting (profile : Profile) (left : List Credential)
  /-- The copies are with the vault. -/
  | copying (profile : Profile) (answer : Option Bool)
  /-- The copies left to compare, before the update or after it. -/
  | verifying (profile : Profile) (left : List Copied) (updated : Bool)
  /-- The update is with NetworkManager. -/
  | updating (profile : Profile) (answer : Option Bool)
  | confirming (profile : Profile)
  | cleaning (left : List (Property × Bytes × Nat))
  | finished (ok : Bool)

/-- The phase of a call that hears what became of its request. -/
def Phase.heard (accepted : Bool) : Phase → Phase
  | .writing none => .writing (some accepted)
  | .copying profile none => .copying profile (some accepted)
  | phase => phase

structure CallState where
  call : Call
  /-- What the call read when it began. -/
  generation : Nat
  phase : Phase
  /-- Of a migration: the version and the flags of the profile when it began, and what it has collected. -/
  version : Nat
  flags : Property → SecretFlags
  copies : List Copied
  /-- How many calls had begun when the vault carried out the request of this one. -/
  carriedOut : Option Nat

/-- A request that a later `cancel_get_secrets` or deletion finds. -/
structure Pending where
  call : Nat
  path : String
  setting : String
deriving DecidableEq, Repr

/-- What NetworkManager keeps of a credential: the value is there while it is the owner. -/
structure ProfileSecret where
  flags : SecretFlags
  value : Option Bytes
  systemOwned : value.isSome → flags &&& SecretFlags.agentOwned = 0

structure ManagedProfile where
  version : Nat
  secrets : Property → ProfileSecret

/-- The profile with these credentials owned by the agent. -/
def ManagedProfile.update (profile : ManagedProfile) (properties : List Property) : ManagedProfile where
  version := profile.version + 1
  secrets p := if p ∈ properties then ⟨SecretFlags.agentOwned, none, fun h => by cases h⟩ else profile.secrets p

/-- An update that was sent to NetworkManager. -/
structure Update where
  owner : Nat
  uuid : String
  version : Nat
  properties : List Property

structure State where
  contents : Contents
  generation : Nat
  migrations : String → Option (Nat × Bool)
  writer : Option Nat
  pending : List Pending
  calls : List CallState
  requests : List Request
  profiles : String → ManagedProfile
  updates : List Update
  legacy : String → Property → List (Nat × Bytes)

namespace State

/-- Before any call. -/
def begin (contents : Contents) (profiles : String → ManagedProfile)
    (legacy : String → Property → List (Nat × Bytes)) : State :=
  ⟨contents, 0, fun _ => none, none, [], [], [], profiles, [], legacy⟩

def setPhase (s : State) (n : Nat) (c : CallState) (phase : Phase) : State :=
  { s with calls := s.calls.set n { c with phase } }

/-- The drop of a `Guard`, by a call that has one. -/
def releaseGuard (migrations : String → Option (Nat × Bool)) (c : CallState) : String → Option (Nat × Bool) :=
  match c.call, c.phase with
  | .migrate _, .began | .migrate _, .finished _ => migrations
  | .migrate uuid, _ => Function.update migrations uuid ((migrations uuid).map fun m => (m.1, false))
  | _, _ => migrations

/-- The end of a call: what it holds is released. -/
def finish (s : State) (n : Nat) (c : CallState) (ok : Bool) : State :=
  { s with
    calls := s.calls.set n { c with phase := .finished ok }
    writer := if s.writer = some n then none else s.writer
    pending := s.pending.filter (·.call ≠ n)
    migrations := releaseGuard s.migrations c }

/-! ## The agent's calls -/

/-- A call begins. A migration has read the version and the flags of its profile when it asks for the lock. -/
def start (s : State) (call : Call) : State :=
  { s with calls := s.calls ++ [⟨call, s.generation, .began, (s.profiles call.uuid).version,
      fun p => ((s.profiles call.uuid).secrets p).flags, [], none⟩] }

/-- `check_migration`. -/
def migrating (s : State) (uuid : String) : Bool := (s.migrations uuid).any fun m => m.2

/-- `check_generation`. -/
def outdated (s : State) (uuid : String) (generation : Nat) : Bool := (s.migrations uuid).any fun m => generation < m.1

/-- A get up to its next await: the check for a migration and the name of the setting. -/
def letIn (s : State) (n : Nat) : Except Unit State :=
  match s.calls[n]? with
  | some c =>
    match c.call, c.phase with
    | .get _ settingName profile _, .began =>
      .ok (if s.migrating profile.uuid || settingName ≠ profile.setting.name then s.finish n c false
        else s.setPhase n c .admitted)
    | _, _ => .error ()
  | none => .error ()

/-- A get is filed as pending, unless there are too many. -/
def register (s : State) (n : Nat) : Except Unit State :=
  match s.calls[n]? with
  | some c =>
    match c.call, c.phase with
    | .get path settingName _ _, .admitted =>
      .ok (if 64 ≤ s.pending.length then s.finish n c false
        else { s.setPhase n c .registered with pending := s.pending ++ [⟨n, path, settingName⟩] })
    | _, _ => .error ()
  | none => .error ()

/-- A get has read what is stored and asked for what is missing. -/
def gather (s : State) (n : Nat) (stored entered : Property → Option Bytes) : Except Unit State :=
  match s.calls[n]? with
  | some c =>
    match c.call, c.phase with
    | .get _ _ profile flags, .registered =>
      .ok (match getWrites profile flags stored entered with
        | none => s.finish n c false
        | some writes => s.setPhase n c (.ready writes))
    | _, _ => .error ()
  | none => .error ()

/-- The requests that `Requests::cancel` finds for a path and both settings. -/
def canceled (s : State) (path : String) : List Nat :=
  (s.pending.filter fun p => p.path = path &&
    (p.setting = Setting.wifiSecurity.name || p.setting = Setting.eap.name)).map Pending.call

/-- A call is dropped where it stands. -/
def drop (s : State) (n : Nat) : State :=
  match s.calls[n]? with
  | some c =>
    match c.phase with
    | .finished _ => s
    | _ => s.finish n c false
  | none => s

/-- A save or a deletion works out its writes; a deletion first cancels the gets of its path. -/
def prepare (s : State) (n : Nat) : Except Unit State :=
  match s.calls[n]? with
  | some c =>
    match c.call, c.phase with
    | .save profile, .began =>
      .ok (match saveWrites profile with
        | none => s.finish n c false
        | some writes => s.setPhase n c (.ready writes))
    | .delete path uuid, .began =>
      .ok (((s.canceled path).foldl drop s).setPhase n c (.ready (deleteWrites uuid)))
    | _, _ => .error ()
  | none => .error ()

/-- The checks of a get, a save and a deletion behind the lock. -/
def refused (s : State) (c : CallState) : Bool :=
  match c.call with
  | .get _ _ profile _ => s.migrating profile.uuid || s.outdated profile.uuid c.generation
  | _ => s.outdated c.call.uuid c.generation

/-- The call has the lock: it is refused, or hands its writes to the vault. A migration takes its guard. -/
def lock (s : State) (n : Nat) : Except Unit State :=
  match s.calls[n]?, s.writer with
  | some c, none =>
    match c.call, c.phase with
    | .migrate uuid, .began =>
      .ok (if s.migrating uuid then s.finish n c false
        else { s.setPhase n c .guarded with
          writer := some n
          generation := s.generation + 1
          migrations := Function.update s.migrations uuid (some (s.generation + 1, true)) })
    | .migrate _, _ => .error ()
    | _, .ready writes =>
      .ok (if s.refused c then s.finish n c false
        else if writes.isEmpty then { s.setPhase n c (.writing (some true)) with writer := some n }
        else { s.setPhase n c (.writing none) with
          writer := some n
          requests := s.requests ++ [⟨n, writes⟩] })
    | _, _ => .error ()
  | _, _ => .error ()

/-- The vault carries out a request, or refuses it. -/
def carryOut (s : State) (i : Nat) (accepted : Bool) : Except Unit State :=
  match s.requests[i]? with
  | some r =>
    let s := { s with
      requests := s.requests.eraseIdx i
      contents := if accepted then r.mutations.foldl (Contents.mutate r.owner) s.contents else s.contents }
    .ok (match s.calls[r.owner]? with
      | some c => { s with calls := s.calls.set r.owner { c with
          phase := c.phase.heard accepted
          carriedOut := if accepted then some s.calls.length else c.carriedOut } }
      | none => s)
  | none => .error ()

/-- A get, a save or a deletion hears from the vault and returns. A get also needs the vault to be still open, but then
`fail` is what happens. -/
def complete (s : State) (n : Nat) : Except Unit State :=
  match s.calls[n]? with
  | some c =>
    match c.phase with
    | .writing (some ok) => .ok (s.finish n c ok)
    | _ => .error ()
  | none => .error ()

/-! ## Migrations -/

/-- `collect` for one credential (migration.rs:216-285): nothing to copy, a copy, or a failure (`none`). -/
def collectOne (s : State) (profile : Profile) (legacyAvailable : Bool) (credential : Credential) :
    Option (Option Copied) :=
  if credential.flags &&& (SecretFlags.notSaved ||| SecretFlags.notRequired) ≠ 0 ||
      credential.flags &&& ~~~(7 : UInt32) ≠ 0 then some none
  else
    let old := if legacyAvailable then s.legacy profile.uuid credential.property else []
    let stored := (s.contents (credential.property.address profile.uuid)).map Prod.fst
    let source := (credential.supplied.or (old.head?.map Prod.snd)).or
      (if credential.flags.agentMaySave then stored else none)
    match source with
    | none => if credential.needed then none else some none
    | some value =>
      if credential.property.validate profile.keyManagement value && stored.all (· = value) &&
          old.all (fun e => e.2 = value) then
        some (some ⟨credential.property, value, old.map Prod.fst⟩)
      else none

/-- The writes of a migration (migration.rs:386-396). -/
def copyWrites (profile : Profile) (copies : List Copied) : List VaultMutation :=
  copies.map (fun copy => .put (copy.property.address profile.uuid) copy.value none) ++ [nameMutation profile]

/-- `read_credentials`: the flags are those of the versioned settings, the values those NetworkManager has. -/
def readCredentials (s : State) (n : Nat) (profile : Profile) : Except Unit State :=
  match s.calls[n]? with
  | some c =>
    match c.call, c.phase with
    | .migrate uuid, .guarded =>
      if profile.uuid = uuid ∧ ∀ credential ∈ profile.credentials,
          credential.flags = c.flags credential.property ∧
            credential.supplied = ((s.profiles uuid).secrets credential.property).value then
        .ok (s.setPhase n c (.collecting profile profile.credentials))
      else .error ()
    | _, _ => .error ()
  | none => .error ()

/-- A migration collects its next credential, or is done with them: with nothing to move it is over, otherwise it hands
the copies to the vault. -/
def collect (s : State) (n : Nat) (legacyAvailable : Bool) : Except Unit State :=
  match s.calls[n]? with
  | some c =>
    match c.phase with
    | .collecting profile (credential :: left) =>
      .ok (match s.collectOne profile legacyAvailable credential with
        | none => s.finish n c false
        | some copy =>
          s.setPhase n { c with copies := c.copies ++ copy.toList } (.collecting profile left))
    | .collecting profile [] =>
      .ok (if c.copies.isEmpty then s.finish n c true
        else { s.setPhase n c (.copying profile none) with
          requests := s.requests ++ [⟨n, copyWrites profile c.copies⟩] })
    | _ => .error ()
  | none => .error ()

/-- A migration has its copies in the vault. -/
def copied (s : State) (n : Nat) : Except Unit State :=
  match s.calls[n]? with
  | some c =>
    match c.phase with
    | .copying profile (some true) => .ok (s.setPhase n c (.verifying profile c.copies false))
    | .copying _ (some false) => .ok (s.finish n c false)
    | _ => .error ()
  | none => .error ()

/-- The items of the previous keyring that a migration removes. -/
def cleanups (copies : List Copied) : List (Property × Bytes × Nat) :=
  copies.flatMap fun copy => copy.legacyPaths.map fun path => (copy.property, copy.value, path)

/-- A migration compares its next copy with the vault. Done with them it sends the update, or after the update goes on to
the previous keyring. -/
def verify (s : State) (n : Nat) : Except Unit State :=
  match s.calls[n]? with
  | some c =>
    match c.phase with
    | .verifying profile (copy :: left) updated =>
      .ok (if (s.contents (copy.property.address profile.uuid)).map Prod.fst = some copy.value then
          s.setPhase n c (.verifying profile left updated)
        else s.finish n c false)
    | .verifying profile [] false =>
      .ok { s.setPhase n c (.updating profile none) with
        updates := s.updates ++ [⟨n, profile.uuid, c.version, c.copies.map Copied.property⟩] }
    | .verifying _ [] true => .ok (s.setPhase n c (.cleaning (cleanups c.copies)))
    | _ => .error ()
  | none => .error ()

/-- NetworkManager applies an update to the version it is for, or rejects it. -/
def applyUpdate (s : State) (i : Nat) (accepted : Bool) : Except Unit State :=
  match s.updates[i]? with
  | some u =>
    let applied := accepted && decide (u.version = (s.profiles u.uuid).version)
    let s := { s with
      updates := s.updates.eraseIdx i
      profiles := if applied then
          Function.update s.profiles u.uuid ((s.profiles u.uuid).update u.properties)
        else s.profiles }
    .ok (match s.calls[u.owner]? with
      | some c =>
        match c.phase with
        | .updating profile none => s.setPhase u.owner c (.updating profile (some applied))
        | _ => s
      | none => s)
  | none => .error ()

/-- A migration hears that the profile was updated, and reads it back. -/
def updated (s : State) (n : Nat) : Except Unit State :=
  match s.calls[n]? with
  | some c =>
    match c.phase with
    | .updating profile (some true) => .ok (s.setPhase n c (.confirming profile))
    | .updating _ (some false) => .ok (s.finish n c false)
    | .confirming profile =>
      .ok (if c.copies.all fun copy =>
            ((s.profiles profile.uuid).secrets copy.property).flags = SecretFlags.agentOwned then
          s.setPhase n c (.verifying profile c.copies true)
        else s.finish n c false)
    | _ => .error ()
  | none => .error ()

/-- A migration removes an item of the previous keyring that still has the value it copied, or is done. -/
def clean (s : State) (n : Nat) : Except Unit State :=
  match s.calls[n]? with
  | some c =>
    match c.phase with
    | .cleaning ((p, value, path) :: left) =>
      let items := s.legacy c.call.uuid p
      .ok (if (path, value) ∈ items then
          { s.setPhase n c (.cleaning left) with
            legacy := Function.update s.legacy c.call.uuid
              (Function.update (s.legacy c.call.uuid) p (items.filter fun e => e.1 ≠ path)) }
        else s.finish n c false)
    | .cleaning [] => .ok (s.finish n c true)
    | _ => .error ()
  | none => .error ()

end State

/-! ## Runs -/

inductive Event where
  | start (call : Call)
  | letIn (n : Nat)
  | register (n : Nat)
  | gather (n : Nat) (stored entered : Property → Option Bytes)
  | prepare (n : Nat)
  | lock (n : Nat)
  | carryOut (i : Nat) (accepted : Bool)
  | complete (n : Nat)
  | fail (n : Nat)
  | readCredentials (n : Nat) (profile : Profile)
  | collect (n : Nat) (legacyAvailable : Bool)
  | copied (n : Nat)
  | verify (n : Nat)
  | applyUpdate (i : Nat) (accepted : Bool)
  | updated (n : Nat)
  | clean (n : Nat)

def process : Process State Event Unit where
  step s
    | .start call => .ok (s.start call)
    | .letIn n => s.letIn n
    | .register n => s.register n
    | .gather n stored entered => s.gather n stored entered
    | .prepare n => s.prepare n
    | .lock n => s.lock n
    | .carryOut i accepted => s.carryOut i accepted
    | .complete n => s.complete n
    | .fail n => .ok (s.drop n)
    | .readCredentials n profile => s.readCredentials n profile
    | .collect n legacyAvailable => s.collect n legacyAvailable
    | .copied n => s.copied n
    | .verify n => s.verify n
    | .applyUpdate i accepted => s.applyUpdate i accepted
    | .updated n => s.updated n
    | .clean n => s.clean n

end FactorSeal.Wifi
