import FactorSeal.Lib.Run
import FactorSeal.Sync.Handle

/-! # What the network process may ask of the vault (isolation/network.rs)

Two threads share a permit. `action` sets it for what the user asks and clears it when the request is over; the gate keeps
actions apart. The listener reads what the network process sends, which may be anything, and lets a pairing command
through if it is the one the permit is for, which uses the permit up (`passed_for_actions`). What is shown to the user is
taken from a cache that only replies of the vault change. -/

namespace FactorSeal.Network

open Wire

structure NetworkEnv where
  Group : Type
  /-- `PublicGroup::verified`, and the transports of the group. -/
  transports : Group → Except String (List TransportBinding)
  /-- `PairingInvitation::ticket`. -/
  ticket : PairingInvitation → Option String

inductive Action where
  | refresh
  | invite (name : String)
  | join (ticket name : String)
  | approve (id : Digest)
  | approveJoin (id : Digest)
  | cancel

inductive Command (env : NetworkEnv) where
  | state
  | initializeGroup (endpoint : EndpointId) (name : String)
  | invite
  | offer (endpoint : EndpointId) (name : String)
  | join (invitation : PairingInvitation) (group : env.Group) (endpoint : EndpointId) (name : String)
  | stage (request : PairingRequest) (peer : EndpointId)
  | approve (id : Digest)
  | approveJoin (id : Digest)
  | accept (group : env.Group)
  | cancel
  | prepare
  | stored (packet : PacketId)
  | receive (bytes : Bytes)

inductive Permit where
  | offer (name : String)
  | join (ticket name : String)
  | approve (id : Digest)
  | approveJoin (id : Digest)
  | cancel

def Permit.forAction : Action → Option Permit
  | .refresh => none
  | .invite name => some (.offer name)
  | .join ticket name => some (.join ticket name)
  | .approve id => some (.approve id)
  | .approveJoin id => some (.approveJoin id)
  | .cancel => some .cancel

variable {env : NetworkEnv}

/-- `matches`. -/
def Permit.covers : Permit → Command env → Bool
  | .offer expected, .offer _ name => expected = name
  | .join ticket name, .join invitation _ _ actual => name = actual ∧ env.ticket invitation = some ticket
  | .approve expected, .approve actual => expected = actual
  | .approveJoin expected, .approveJoin actual => expected = actual
  | .cancel, .cancel => true
  | _, _ => false

/-- A command that is let through in any case. -/
def Command.free : Command env → Bool
  | .state | .stage .. | .accept _ | .prepare | .stored _ | .receive _ => true
  | _ => false

/-- `authorize`: whether the command goes through, and the permit afterwards. -/
def authorize (command : Command env) (permit : Option Permit) : Bool × Option Permit :=
  if command.free then (true, permit)
  else if permit.any (·.covers command) then (true, none)
  else (false, permit)

/-- What the vault says of pairing; all of it is absent at first. -/
structure PairingView (env : NetworkEnv) where
  (group introduction target : Option env.Group := none)
  invitation : Option PairingInvitation := none
  request : Option PairingRequest := none
  joining : Bool := false
  (pending conflicts readers : Nat := 0)

inductive Reply (env : NetworkEnv) where
  | state (state : PairingView env)
  | group (group : env.Group)
  | packet (bytes : Option Bytes)
  | done

structure Cached (env : NetworkEnv) where
  state : PairingView env
  devices : Except String (List TransportBinding)

/-- `Cached::devices`. -/
def devicesOf (state : PairingView env) : Except String (List TransportBinding) :=
  match state.group with
  | some group => env.transports group
  | none => .ok []

def Cached.new (state : PairingView env) : Cached env := ⟨state, devicesOf state⟩

/-- What the listener does to the cache with the vault's answer to a command. -/
def Cached.absorb (cached : Cached env) : Command env × Except String (Reply env) → Cached env
  | (_, .ok (.state state)) => .new state
  | (_, .ok (.group group)) => .new { cached.state with group := some group }
  | (.state, .error _) => { cached with state := { group := cached.state.group, readers := cached.state.readers } }
  | _ => cached

/-- The cache after these replies, the last one first. -/
def told (replies : List (Command env × Except String (Reply env))) : Cached env :=
  replies.foldr (fun reply cached => cached.absorb reply) (.new {})

/-- What both threads share, what each is about, and what has happened. -/
structure Shared (env : NetworkEnv) where
  permit : Option Permit := none
  cached : Cached env := .new {}
  previousHostId : Nat := 0
  /-- The action that has the gate, with its number. -/
  acting : Option (Nat × Action) := none
  started : Nat := 0
  /-- The command the vault is working on. -/
  serving : Option (Command env) := none
  /-- The commands let through for a permit, each with the action that had the gate. -/
  passed : List (Option (Nat × Action) × Command env) := []
  replies : List (Command env × Except String (Reply env)) := []
  shown : List (PairingView env × List TransportBinding) := []

/-- Steps of the two threads. The network process chooses commands, their ids and what it says of pairing, the vault its
answers; all come in any order. -/
inductive Event (env : NetworkEnv) where
  | action (action : Action)
  | actionDone
  | host (id : Nat) (command : Command env)
  | answered (result : Except String (Reply env))
  | view (said : PairingView env × List TransportBinding)
  | failedView

def Shared.step (s : Shared env) : Event env → Except String (Shared env)
  | .action action =>
    if s.acting.isSome then .error "gate" else
      .ok { s with acting := some (s.started, action), started := s.started + 1, permit := Permit.forAction action }
  | .actionDone => .ok { s with acting := none, permit := none }
  | .host id command =>
    if s.serving.isSome ∨ id ≤ s.previousHostId then .error "replayed network callback"
    else match authorize command s.permit with
      | (true, permit) => .ok { s with
          previousHostId := id, permit, serving := some command
          passed := if command.free then s.passed else (s.acting, command) :: s.passed }
      | (false, _) => .ok { s with previousHostId := id }
  | .answered result =>
    match s.serving, result with
    | none, _ => .error "no command"
    | some .state, .error e => .ok { s with
        serving := none, permit := none, cached := s.cached.absorb (.state, .error e)
        replies := (.state, .error e) :: s.replies }
    | some command, result => .ok { s with
        serving := none, cached := s.cached.absorb (command, result), replies := (command, result) :: s.replies }
  | .view _ => do
    let devices ← s.cached.devices
    return { s with shown := (s.cached.state, devices) :: s.shown }
  | .failedView => .ok { s with shown := ({}, []) :: s.shown }

def process (env : NetworkEnv) : Process (Shared env) (Event env) String := ⟨Shared.step⟩

/-- The command is what the user asked for: of the same kind, with the same name, ticket or id. -/
def Action.Asks : Action → Command env → Prop
  | .invite name, .offer _ actual => actual = name
  | .join ticket name, .join invitation _ _ actual => actual = name ∧ env.ticket invitation = some ticket
  | .approve id, .approve actual => actual = id
  | .approveJoin id, .approveJoin actual => actual = id
  | .cancel, .cancel => True
  | _, _ => False

/-- Commands are let through for actions that ask for them, one for each; what is shown comes from replies. -/
structure Permitted (s : Shared env) : Prop where
  asked : ∀ entry ∈ s.passed, ∃ n action, entry.1 = some (n, action) ∧ action.Asks entry.2
  once : (s.passed.map Prod.fst).Nodup
  shown : ∀ view ∈ s.shown, ∃ replies, replies <:+ s.replies ∧ told replies = ⟨view.1, .ok view.2⟩

structure Inv (s : Shared env) : Prop extends Permitted s where
  permit : ∀ permit ∈ s.permit, ∃ n action, s.acting = some (n, action) ∧ Permit.forAction action = some permit ∧
    s.acting ∉ s.passed.map Prod.fst
  numbered : ∀ n action, some (n, action) ∈ s.passed.map Prod.fst ∨ s.acting = some (n, action) → n < s.started
  cached : s.cached = told s.replies

theorem asks_of_covers {action : Action} {permit : Permit} {command : Command env}
    (hpermit : Permit.forAction action = some permit) (h : permit.covers command = true) : action.Asks command := by
  cases action <;> cases hpermit <;> cases command <;> simp_all [Permit.covers, Action.Asks]

/-- What goes through is free, or uses up a permit that is for it. -/
theorem authorize_eq_true {command : Command env} {before after : Option Permit}
    (h : authorize command before = (true, after)) : command.free = true ∧ after = before ∨
      command.free = false ∧ after = none ∧ ∃ permit ∈ before, permit.covers command = true := by
  unfold authorize at h
  split at h
  next hfree =>
    cases h
    exact .inl ⟨hfree, rfl⟩
  next hfree =>
    split at h
    next hcovers =>
      cases h
      exact .inr ⟨by simpa using hfree, rfl, by simpa [Option.any_eq_true] using hcovers⟩
    next => cases h

theorem Inv.step {s s' : Shared env} {event : Event env} (h : Inv s) (hs : s.step event = .ok s') : Inv s' := by
  obtain ⟨⟨hasked, honce, hshown⟩, hpermit, hnumbered, hcached⟩ := h
  have hlater : ∀ reply, ∀ view ∈ s.shown, ∃ replies, replies <:+ reply :: s.replies ∧
      told replies = ⟨view.1, .ok view.2⟩ := by
    intro reply view hview
    obtain ⟨replies, hearlier, hsame⟩ := hshown view hview
    exact ⟨replies, hearlier.trans (List.suffix_cons _ _), hsame⟩
  cases event <;> simp only [Shared.step] at hs
  case action action =>
    split at hs <;> cases hs
    refine ⟨⟨hasked, honce, hshown⟩, fun permit hfor => ⟨s.started, action, rfl, hfor, fun hmem => ?_⟩,
      fun n other hother => ?_, hcached⟩
    · exact Nat.lt_irrefl _ (hnumbered _ _ (.inl hmem))
    · rcases hother with hmem | hacting
      · exact Nat.lt_succ_of_lt (hnumbered n other (.inl hmem))
      · cases hacting
        exact Nat.lt_succ_self _
  case actionDone =>
    cases hs
    exact ⟨⟨hasked, honce, hshown⟩, nofun, fun n other hother => hnumbered n other (hother.imp_right nofun), hcached⟩
  case host id command =>
    split at hs
    · cases hs
    · split at hs <;> cases hs
      next permit hauthorized =>
        rcases authorize_eq_true hauthorized with ⟨hfree, rfl⟩ | ⟨hfree, rfl, permit, hold, hcovers⟩
        · simp only [hfree, if_true]
          exact ⟨⟨hasked, honce, hshown⟩, hpermit, hnumbered, hcached⟩
        · -- the permit is that of the action under way, which has not been used yet
          obtain ⟨n, action, hacting, hfor, hunused⟩ := hpermit permit hold
          simp only [hfree, Bool.false_eq_true, if_false]
          refine ⟨⟨fun entry hentry => ?_, ?_, hshown⟩, nofun, fun m other hother => hnumbered m other ?_, hcached⟩
          · rcases List.mem_cons.1 hentry with rfl | hentry
            · exact ⟨n, action, hacting, asks_of_covers hfor hcovers⟩
            · exact hasked entry hentry
          · exact List.nodup_cons.2 ⟨hunused, honce⟩
          · rcases hother with hmem | hother
            · exact (List.mem_cons.1 hmem).elim (fun heq => .inr heq.symm) .inl
            · exact .inr hother
      next => exact ⟨⟨hasked, honce, hshown⟩, hpermit, hnumbered, hcached⟩
  case answered result =>
    split at hs <;> cases hs
    · exact ⟨⟨hasked, honce, hlater _⟩, nofun, hnumbered, by rw [hcached]; rfl⟩
    · exact ⟨⟨hasked, honce, hlater _⟩, hpermit, hnumbered, by rw [hcached]; rfl⟩
  case view said =>
    obtain ⟨devices, hdevices, hs⟩ := Except.bind_eq_ok.1 hs
    cases hs
    refine ⟨⟨hasked, honce, fun view hview => ?_⟩, hpermit, hnumbered, hcached⟩
    rcases List.mem_cons.1 hview with rfl | hview
    · exact ⟨s.replies, List.suffix_refl _, by rw [← hcached, ← hdevices]⟩
    · exact hshown view hview
  case failedView =>
    cases hs
    refine ⟨⟨hasked, honce, fun view hview => ?_⟩, hpermit, hnumbered, hcached⟩
    rcases List.mem_cons.1 hview with rfl | hview
    · exact ⟨[], List.nil_suffix, rfl⟩
    · exact hshown view hview

end FactorSeal.Network
