import Creditcoin.Lib.Run
import Creditcoin.Numeral
import Mathlib.Data.List.AList

/-!
# Gossip peers

The peers of a validator are the endpoints that it gossips with, by connection. What the network
does with connections, and what the topology keeps of their statuses, changes in between: a
connection goes away and its endpoint connects again under another one.

A registration refuses an endpoint that is registered already when the connection of that entry
still has the status of a peer, and removes the entry. Statuses are dropped by connection and peers
by endpoint, so an entry can outlive its status, and then it is not recognised.
-/

namespace Creditcoin.Validator

/-- `PeerStatus`. -/
inductive PeerStatus where
  | closed
  | temp
  | peer
deriving DecidableEq

/-- A dictionary with string keys. -/
abbrev Dict (α : Type) : Type := AList fun _ : Text => α

/-- The peers, the topology's statuses and the network's connections. -/
structure Gossip where
  /-- `_peers`: the endpoints of peers, by connection. -/
  peers : Dict Text
  /-- `_connection_statuses`. -/
  connectionStatuses : Dict PeerStatus
  /-- The live connections of the network, with their endpoints. -/
  connections : Dict Text

namespace Gossip

variable (gossip : Gossip)

/-- Nothing is connected. -/
def init : Gossip := ⟨∅, ∅, ∅⟩

/-! ## The network -/

/-- `get_connection_id_by_endpoint`, `none` for a `KeyError`. -/
def getConnectionIdByEndpoint (endpoint : Text) : Option Text :=
  (gossip.connections.entries.find? fun entry => entry.2 == endpoint).map Sigma.fst

/-- `has_connection`. -/
def hasConnection (connectionId : Text) : Bool := decide (connectionId ∈ gossip.connections)

/-- `remove_connection`. -/
def removeConnection (connectionId : Text) : Gossip :=
  { gossip with connections := gossip.connections.erase connectionId }

/-- A connection appears. -/
def connect (connectionId endpoint : Text) : Gossip :=
  { gossip with connections := gossip.connections.insert connectionId endpoint }

/-! ## The statuses -/

/-- `set_connection_status`. -/
def setConnectionStatus (connectionId : Text) (status : PeerStatus) : Gossip :=
  { gossip with connectionStatuses := gossip.connectionStatuses.insert connectionId status }

/-- `get_connection_status`. -/
def getConnectionStatus (connectionId : Text) : Option PeerStatus :=
  gossip.connectionStatuses.lookup connectionId

/-- `remove_connection_status`. -/
def removeConnectionStatus (connectionId : Text) : Gossip :=
  { gossip with connectionStatuses := gossip.connectionStatuses.erase connectionId }

/-- `_remove_temporary_connection`, but for the message that it sends. -/
def removeTemporaryConnection (connectionId : Text) : Gossip :=
  if gossip.getConnectionStatus connectionId = some .temp then
    (gossip.removeConnectionStatus connectionId).removeConnection connectionId
  else gossip

/-! ## The peers -/

/-- `unregister_peer`. -/
def unregisterPeer (connectionId : Text) : Gossip :=
  if connectionId ∈ gossip.peers then
    { gossip with peers := gossip.peers.erase connectionId }.setConnectionStatus connectionId .temp
  else gossip

/-- The connections in `stale_peers`. -/
def stalePeers (endpoint : Text) : List Text :=
  (gossip.peers.entries.filter fun entry =>
    decide (entry.2 = endpoint ∧ gossip.getConnectionStatus entry.1 = some .peer)).map Sigma.fst

/-- `_try_remove_abandoned_peers`. -/
def tryRemoveAbandonedPeers (endpoint : Text) : Bool × Gossip :=
  let stalePeers := gossip.stalePeers endpoint
  (decide (stalePeers.length ≠ 0),
    stalePeers.foldl (fun gossip id => (gossip.unregisterPeer id).removeTemporaryConnection id)
      gossip)

/-- The number of peers. -/
def peerCount : Nat := gossip.peers.entries.length

/-- `register_peer`, with the text of its `PeeringException`. -/
def registerPeer (maximumPeerConnectivity : Nat) (connectionId endpoint : Text)
    (status : PeerStatus) : Except Text Unit × Gossip :=
  let (foundAbandonedPeers, gossip) := gossip.tryRemoveAbandonedPeers endpoint
  if foundAbandonedPeers then
    (.error ("Already peered with ".toList ++ endpoint ++ ".".toList), gossip)
  else if gossip.peerCount < maximumPeerConnectivity then
    (.ok (), { gossip with peers := gossip.peers.insert connectionId endpoint }.setConnectionStatus
      connectionId status)
  else
    (.error ("At maximum configured number of peers: ".toList ++
      toText (maximumPeerConnectivity : Int) ++ " Rejecting peering request from ".toList ++
      endpoint ++ ".".toList), gossip)

/-! ## Refreshing -/

/-- A pass of the loop of `_refresh_peer_list`. -/
def refreshPeer (entry : Text × Text) : Gossip :=
  match gossip.getConnectionIdByEndpoint entry.2 with
  | some _ => gossip
  | none => (gossip.unregisterPeer entry.1).removeConnectionStatus entry.1

/-- `_refresh_peer_list`, for a copy of the peers that may be out of date. -/
def refreshPeerList (peers : List (Text × Text)) : Gossip := peers.foldl refreshPeer gossip

/-- `_refresh_connection_list`. -/
def refreshConnectionList : Gossip :=
  let closedConnections := gossip.connectionStatuses.keys.filter fun connectionId =>
    !gossip.hasConnection connectionId
  closedConnections.foldl removeConnectionStatus gossip

end Gossip

/-! ## Runs -/

/-- What happens to the peers, the statuses and the connections. -/
inductive GossipCall where
  /-- `register_peer`. -/
  | registerPeer (connectionId endpoint : Text) (status : PeerStatus)
  /-- `unregister_peer`. -/
  | unregisterPeer (connectionId : Text)
  /-- `set_connection_status`. -/
  | setConnectionStatus (connectionId : Text) (status : PeerStatus)
  /-- `remove_connection_status`. -/
  | removeConnectionStatus (connectionId : Text)
  /-- `_remove_temporary_connection`. -/
  | removeTemporaryConnection (connectionId : Text)
  /-- `_refresh_peer_list`; one that others interrupt is several. -/
  | refreshPeerList (peers : List (Text × Text))
  /-- `_refresh_connection_list`. -/
  | refreshConnectionList
  /-- A connection appears. -/
  | connect (connectionId endpoint : Text)
  /-- A connection disappears. -/
  | disconnect (connectionId : Text)

namespace Gossip

/-- The state after a call. -/
def next (maximum : Nat) (gossip : Gossip) : GossipCall → Gossip
  | .registerPeer connectionId endpoint status =>
    (gossip.registerPeer maximum connectionId endpoint status).2
  | .unregisterPeer connectionId => gossip.unregisterPeer connectionId
  | .setConnectionStatus connectionId status => gossip.setConnectionStatus connectionId status
  | .removeConnectionStatus connectionId => gossip.removeConnectionStatus connectionId
  | .removeTemporaryConnection connectionId => gossip.removeTemporaryConnection connectionId
  | .refreshPeerList peers => gossip.refreshPeerList peers
  | .refreshConnectionList => gossip.refreshConnectionList
  | .connect connectionId endpoint => gossip.connect connectionId endpoint
  | .disconnect connectionId => gossip.removeConnection connectionId

/-- No two peers have one endpoint, and there are not too many. -/
structure OnePerPeer (maximum : Nat) (gossip : Gossip) : Prop where
  /-- Peers of one endpoint are one connection. -/
  distinct : ∀ left right endpoint, gossip.peers.lookup left = some endpoint →
    gossip.peers.lookup right = some endpoint → left = right
  /-- There are at most so many. -/
  within : gossip.peerCount ≤ maximum

/-- Another connection that is registered under an endpoint still has the status of a peer, as far
as there is room for one more. -/
def Recognised (maximum : Nat) (gossip : Gossip) : GossipCall → Prop
  | .registerPeer connectionId endpoint _ => gossip.peerCount < maximum →
    ∀ other, other ≠ connectionId → gossip.peers.lookup other = some endpoint →
      gossip.getConnectionStatus other = some .peer
  | _ => True

/-! ## What each call does to the peers -/

/-- Nothing is registered that was not registered before. -/
structure Fewer (before after : Gossip) : Prop where
  /-- A peer was one before. -/
  kept : ∀ connectionId endpoint, after.peers.lookup connectionId = some endpoint →
    before.peers.lookup connectionId = some endpoint
  /-- There are no more of them. -/
  count : after.peerCount ≤ before.peerCount

section Calls

variable {maximum : Nat} {gossip before middle after : Gossip} {connectionId endpoint : Text}
  {status : PeerStatus}

/-- The same peers are no more. -/
theorem Fewer.of_eq (same : after.peers = before.peers) : Fewer before after :=
  ⟨fun _ _ found => same ▸ found, by rw [peerCount, peerCount, same]⟩

/-- What is no more than what was no more. -/
theorem Fewer.trans (first : Fewer before middle) (second : Fewer middle after) :
    Fewer before after :=
  ⟨fun _ _ found => first.kept _ _ (second.kept _ _ found), Nat.le_trans second.count first.count⟩

/-- Calls that register nothing, one after another, register nothing. -/
theorem Fewer.foldl {α : Type} {call : Gossip → α → Gossip}
    (fewer : ∀ gossip item, Fewer gossip (call gossip item)) (items : List α) :
    Fewer gossip (items.foldl call gossip) := by
  induction items generalizing gossip with
  | nil => exact .of_eq rfl
  | cons item items ih => exact (fewer gossip item).trans ih

/-- Fewer peers have as distinct endpoints and as little need of room. -/
theorem OnePerPeer.fewer (sound : before.OnePerPeer maximum) (fewer : Fewer before after) :
    after.OnePerPeer maximum :=
  ⟨fun left right endpoint first second =>
    sound.distinct left right endpoint (fewer.kept _ _ first) (fewer.kept _ _ second),
    Nat.le_trans fewer.count sound.within⟩

/-- `unregister_peer` registers nothing. -/
theorem unregisterPeer_fewer (gossip : Gossip) (connectionId : Text) :
    Fewer gossip (gossip.unregisterPeer connectionId) := by
  rw [unregisterPeer]
  split
  · refine ⟨fun other endpoint found => ?_, ?_⟩
    · change (gossip.peers.erase connectionId).lookup other = some endpoint at found
      by_cases same : other = connectionId
      · rw [same, AList.lookup_erase] at found
        cases found
      · rwa [AList.lookup_erase_ne same] at found
    · exact (List.kerase_sublist connectionId gossip.peers.entries).length_le
  · exact .of_eq rfl

/-- `_remove_temporary_connection` leaves the peers. -/
@[simp] theorem removeTemporaryConnection_peers (gossip : Gossip) (connectionId : Text) :
    (gossip.removeTemporaryConnection connectionId).peers = gossip.peers := by
  rw [removeTemporaryConnection]
  split <;> rfl

/-- `_refresh_peer_list` registers nothing. -/
theorem refreshPeerList_fewer (gossip : Gossip) (peers : List (Text × Text)) :
    Fewer gossip (gossip.refreshPeerList peers) := by
  refine Fewer.foldl (fun gossip entry => ?_) peers
  rw [refreshPeer]
  split
  · exact .of_eq rfl
  · exact (unregisterPeer_fewer gossip entry.1).trans (.of_eq rfl)

/-- `_refresh_connection_list` leaves the peers. -/
theorem refreshConnectionList_fewer (gossip : Gossip) :
    Fewer gossip gossip.refreshConnectionList := by
  have each (gossip : Gossip) (connectionId : Text) :
      Fewer gossip (gossip.removeConnectionStatus connectionId) := .of_eq rfl
  exact Fewer.foldl each _

/-- `_try_remove_abandoned_peers` registers nothing. -/
theorem tryRemoveAbandonedPeers_fewer (gossip : Gossip) (endpoint : Text) :
    Fewer gossip (gossip.tryRemoveAbandonedPeers endpoint).2 :=
  Fewer.foldl (fun gossip id =>
    (unregisterPeer_fewer gossip id).trans (.of_eq (removeTemporaryConnection_peers _ _))) _

/-- The stale peers of an endpoint are those that have the status of a peer. -/
theorem mem_stalePeers :
    connectionId ∈ gossip.stalePeers endpoint ↔
      gossip.peers.lookup connectionId = some endpoint ∧
        gossip.getConnectionStatus connectionId = some .peer := by
  rw [stalePeers, List.mem_map]
  constructor
  · rintro ⟨⟨other, found⟩, listed, rfl⟩
    obtain ⟨registered, matched⟩ := List.mem_filter.mp listed
    obtain ⟨same, status⟩ := of_decide_eq_true matched
    exact ⟨AList.mem_lookup_iff.mpr (same ▸ registered), status⟩
  · rintro ⟨found, status⟩
    refine ⟨⟨connectionId, endpoint⟩, List.mem_filter.mpr ⟨?_, ?_⟩, rfl⟩
    · exact AList.mem_lookup_iff.mp found
    · exact decide_eq_true ⟨rfl, status⟩

/-- A registration either registers nothing, or finds no stale peer and has room. -/
theorem registerPeer_cases :
    ((gossip.stalePeers endpoint ≠ [] ∨ maximum ≤ gossip.peerCount) ∧
      Fewer gossip (gossip.registerPeer maximum connectionId endpoint status).2) ∨
    (gossip.stalePeers endpoint = [] ∧ gossip.peerCount < maximum ∧
      (gossip.registerPeer maximum connectionId endpoint status).2.peers =
        gossip.peers.insert connectionId endpoint) := by
  by_cases clean : gossip.stalePeers endpoint = []
  · have removed : gossip.tryRemoveAbandonedPeers endpoint = (false, gossip) := by
      rw [tryRemoveAbandonedPeers, clean]
      rfl
    simp only [registerPeer, removed, Bool.false_eq_true, if_false]
    by_cases room : gossip.peerCount < maximum
    · rw [if_pos room]
      exact .inr ⟨clean, room, rfl⟩
    · rw [if_neg room]
      exact .inl ⟨.inr (Nat.le_of_not_lt room), .of_eq rfl⟩
  · have removed : (gossip.tryRemoveAbandonedPeers endpoint).1 = true :=
      decide_eq_true (by simpa using clean)
    simp only [registerPeer, removed, if_true]
    exact .inl ⟨.inl clean, tryRemoveAbandonedPeers_fewer gossip endpoint⟩

/-- An insertion adds one peer at most. -/
theorem peerCount_insert (room : before.peerCount < maximum)
    (inserted : after.peers = before.peers.insert connectionId endpoint) :
    after.peerCount ≤ maximum := by
  have shorter := (List.kerase_sublist connectionId before.peers.entries).length_le
  rw [peerCount] at room ⊢
  rw [inserted, AList.entries_insert, List.length_cons]
  omega

/-- A new peer has one connection when no other connection has its endpoint. -/
theorem OnePerPeer.insert (sound : before.OnePerPeer maximum) (room : before.peerCount < maximum)
    (inserted : after.peers = before.peers.insert connectionId endpoint)
    (fresh : ∀ other, other ≠ connectionId → before.peers.lookup other ≠ some endpoint) :
    after.OnePerPeer maximum := by
  constructor
  · intro left right found first second
    rw [inserted] at first second
    by_cases own : left = connectionId
    · by_cases same : right = connectionId
      · rw [own, same]
      · rw [own, AList.lookup_insert] at first
        rw [AList.lookup_insert_ne same, ← Option.some.inj first] at second
        exact absurd second (fresh right same)
    · by_cases same : right = connectionId
      · rw [same, AList.lookup_insert] at second
        rw [AList.lookup_insert_ne own, ← Option.some.inj second] at first
        exact absurd first (fresh left own)
      · rw [AList.lookup_insert_ne own] at first
        rw [AList.lookup_insert_ne same] at second
        exact sound.distinct left right found first second
  · exact peerCount_insert room inserted

/-- A call that is no registration registers nothing. -/
theorem next_fewer (call : GossipCall)
    (other : ∀ connectionId endpoint status, call ≠ .registerPeer connectionId endpoint status) :
    Fewer gossip (gossip.next maximum call) := by
  cases call with
  | registerPeer connectionId endpoint status => exact absurd rfl (other _ _ _)
  | unregisterPeer connectionId => exact unregisterPeer_fewer gossip connectionId
  | setConnectionStatus connectionId status => exact .of_eq rfl
  | removeConnectionStatus connectionId => exact .of_eq rfl
  | removeTemporaryConnection connectionId =>
    exact .of_eq (removeTemporaryConnection_peers gossip connectionId)
  | refreshPeerList peers => exact refreshPeerList_fewer gossip peers
  | refreshConnectionList => exact refreshConnectionList_fewer gossip
  | connect connectionId endpoint => exact .of_eq rfl
  | disconnect connectionId => exact .of_eq rfl

/-- No call makes too many peers. -/
theorem next_within (within : gossip.peerCount ≤ maximum) (call : GossipCall) :
    (gossip.next maximum call).peerCount ≤ maximum := by
  by_cases registers : ∃ connectionId endpoint status,
      call = .registerPeer connectionId endpoint status
  · obtain ⟨connectionId, endpoint, status, rfl⟩ := registers
    rcases registerPeer_cases with ⟨_, fewer⟩ | ⟨_, room, inserted⟩
    · exact Nat.le_trans fewer.count within
    · exact peerCount_insert room inserted
  · have other := fun connectionId endpoint status same =>
      registers ⟨connectionId, endpoint, status, same⟩
    exact Nat.le_trans (next_fewer call other).count within

/-- A call keeps one connection per peer exactly when a registration recognises the peers. -/
theorem next_onePerPeer_iff (sound : gossip.OnePerPeer maximum) (call : GossipCall) :
    (gossip.next maximum call).OnePerPeer maximum ↔ gossip.Recognised maximum call := by
  by_cases registers : ∃ connectionId endpoint status,
      call = .registerPeer connectionId endpoint status
  · obtain ⟨connectionId, endpoint, status, rfl⟩ := registers
    rw [next, Recognised]
    rcases registerPeer_cases with ⟨refused, fewer⟩ | ⟨clean, room, inserted⟩
    · refine ⟨fun _ room other different registered => ?_, fun _ => sound.fewer fewer⟩
      rcases refused with stale | full
      · -- the stale peer is the one that has the endpoint
        obtain ⟨found, listed⟩ := List.exists_mem_of_ne_nil _ stale
        obtain ⟨same, peered⟩ := mem_stalePeers.mp listed
        rwa [sound.distinct other found endpoint registered same]
      · exact absurd room (Nat.not_lt.mpr full)
    · constructor
      · intro after _ other different registered
        have twice := after.distinct other connectionId endpoint
          (by rw [inserted, AList.lookup_insert_ne different, registered])
          (by rw [inserted, AList.lookup_insert])
        exact absurd twice different
      · intro recognised
        refine sound.insert room inserted fun other different registered => ?_
        have peered := recognised room other different registered
        have stale := mem_stalePeers.mpr ⟨registered, peered⟩
        rw [clean] at stale
        cases stale
  · have other := fun connectionId endpoint status same =>
      registers ⟨connectionId, endpoint, status, same⟩
    have trivially : gossip.Recognised maximum call := by
      cases call with
      | registerPeer connectionId endpoint status => exact absurd rfl (other _ _ _)
      | _ => exact trivial
    exact ⟨fun _ => trivially, fun _ => sound.fewer (next_fewer call other)⟩

end Calls

/-- There are no peers at first. -/
theorem init_onePerPeer (maximum : Nat) : init.OnePerPeer maximum :=
  ⟨fun _ _ _ registered _ => (nomatch registered), Nat.zero_le maximum⟩

/-- Over every sequence of calls there is one connection per peer, and no peer too many, in each
state that is reached, exactly when each registration recognises the peers of its endpoint. -/
theorem onePerPeer_iff (maximum : Nat) (calls : List GossipCall) :
    (∀ taken ∈ Lib.Run.along (next maximum) init calls, taken.after.OnePerPeer maximum) ↔
      ∀ taken ∈ Lib.Run.along (next maximum) init calls,
        taken.before.Recognised maximum taken.label := by
  suffices fromSound : ∀ gossip : Gossip, gossip.OnePerPeer maximum →
      ((∀ taken ∈ Lib.Run.along (next maximum) gossip calls, taken.after.OnePerPeer maximum) ↔
        ∀ taken ∈ Lib.Run.along (next maximum) gossip calls,
          taken.before.Recognised maximum taken.label) from fromSound init (init_onePerPeer maximum)
  induction calls with
  | nil =>
    intro gossip _
    exact ⟨fun _ _ listed => (nomatch listed), fun _ _ listed => (nomatch listed)⟩
  | cons call calls ih =>
    intro gossip sound
    rw [Lib.Run.along, List.forall_mem_cons, List.forall_mem_cons, next_onePerPeer_iff sound call]
    constructor
    · rintro ⟨recognised, reached⟩
      have middle := (next_onePerPeer_iff sound call).mpr recognised
      exact ⟨recognised, (ih _ middle).mp reached⟩
    · rintro ⟨recognised, later⟩
      have middle := (next_onePerPeer_iff sound call).mpr recognised
      exact ⟨recognised, (ih _ middle).mpr later⟩

/-- In no state are there too many peers, whatever was recognised. -/
theorem peerCount_within (maximum : Nat) (calls : List GossipCall) :
    ∀ taken ∈ Lib.Run.along (next maximum) init calls, taken.after.peerCount ≤ maximum := by
  suffices fromWithin : ∀ gossip : Gossip, gossip.peerCount ≤ maximum →
      ∀ taken ∈ Lib.Run.along (next maximum) gossip calls, taken.after.peerCount ≤ maximum from
    fromWithin init (init_onePerPeer maximum).within
  induction calls with
  | nil => exact fun _ _ _ listed => (nomatch listed)
  | cons call calls ih =>
    intro gossip within
    rw [Lib.Run.along, List.forall_mem_cons]
    exact ⟨next_within within call, ih _ (next_within within call)⟩

/-! ## A peer that connects again -/

/-- A peer's connection goes away, its endpoint connects again before the lists are refreshed, and
registers under the new connection. -/
def reconnects : List GossipCall :=
  [.connect "a".toList "tcp://peer:8800".toList,
    .registerPeer "a".toList "tcp://peer:8800".toList .peer, .disconnect "a".toList,
    .connect "b".toList "tcp://peer:8800".toList,
    .refreshPeerList [("a".toList, "tcp://peer:8800".toList)], .refreshConnectionList,
    .registerPeer "b".toList "tcp://peer:8800".toList .peer]

/-- A peer can be registered under two connections. -/
theorem peer_registered_twice :
    ¬ ∀ (maximum : Nat) (calls : List GossipCall),
      ∀ taken ∈ Lib.Run.along (next maximum) init calls, taken.after.OnePerPeer maximum := by
  intro claim
  let before := (reconnects.take 6).foldl (next 10) init
  let call := GossipCall.registerPeer "b".toList "tcp://peer:8800".toList .peer
  have last : ⟨before, call, before.next 10 call⟩ ∈ Lib.Run.along (next 10) init reconnects :=
    Lib.Run.mem_along_append (reconnects.take 6) []
  have sound := claim 10 reconnects _ last
  have first : (before.next 10 call).peers.lookup "a".toList = some "tcp://peer:8800".toList := by
    decide
  have second : (before.next 10 call).peers.lookup "b".toList = some "tcp://peer:8800".toList := by
    decide
  exact absurd (sound.distinct _ _ _ first second) (by decide)

end Gossip

end Creditcoin.Validator
