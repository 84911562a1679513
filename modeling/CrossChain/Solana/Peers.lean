import CrossChain.Solana.Program

/-!
# CrossChain.Solana.Peers

Who a store sends to and takes from.

A peer account is made by whichever `set_peer_config` comes first for its
endpoint id, with an address of all zeros until one sets it; nothing in the
program tells that address from another.  So a peer is as old as the first
configuration of its id, and its address is the last one set, zeros when
none was (`recorded_final`).
-/

namespace CrossChain

/-- The address that a parameter sets. -/
def PeerConfigParam.address? : PeerConfigParam → Option (FixedBytes 32)
  | .peerAddress a => some a
  | _ => none

namespace Node

variable (env : Externals)

/-- The address that a step sets for an endpoint id. -/
def addressSet (eid : UInt32) (e : Node × Event) : Option (FixedBytes 32) :=
  match configures env e with
  | some params => if params.remoteEid = eid then params.config.address? else none
  | none => none

/-- The address most recently set for an endpoint id. -/
def lastAddress (eid : UInt32) (steps : List (Node × Event)) : Option (FixedBytes 32) :=
  (steps.filterMap (addressSet env eid)).getLast?

/-- The step is a configuration of an endpoint id, signed by the admin of
the time. -/
def ConfiguredBy (eid : UInt32) (e : Node × Event) : Prop :=
  ∃ tx params, e.2 = .tx tx ∧ configures env e = some params ∧ params.remoteEid = eid ∧
    tx.SignedBy e.1.store.admin

/-- What the steps so far say of the peer of an endpoint id. -/
inductive Recorded (eid : UInt32) (steps : List (Node × Event)) : Option PeerConfig → Prop
  | absent (h : lastAddress env eid steps = none) : Recorded eid steps none
  | present {p : PeerConfig} (made : ∃ e ∈ steps, ConfiguredBy env eid e)
      (address : p.peerAddress = (lastAddress env eid steps).getD (FixedBytes.zero 32)) :
      Recorded eid steps (some p)

variable {env}

variable (env) in
theorem lastAddress_append (eid : UInt32) (steps : List (Node × Event)) (e : Node × Event) :
    lastAddress env eid (steps ++ [e]) = (addressSet env eid e).or (lastAddress env eid steps) := by
  unfold lastAddress
  rw [List.filterMap_append, List.getLast?_append]
  cases h : addressSet env eid e <;> simp [h]

theorem addressSet_eq (eid : UInt32) {e : Node × Event} {params : SetPeerConfigParams}
    (h : configures env e = some params) : addressSet env eid e =
      if params.remoteEid = eid then params.config.address? else none := by
  rw [addressSet, h]

theorem addressSet_of_none {eid : UInt32} {e : Node × Event} (h : configures env e = none) :
    addressSet env eid e = none := by
  rw [addressSet, h]

/-- The address a configuration starts from. -/
theorem Recorded.address_getD {eid : UInt32} {steps : List (Node × Event)}
    {peer : Option PeerConfig} (h : Recorded env eid steps peer) :
    (peer.getD .zeroed).peerAddress =
      (lastAddress env eid steps).getD (FixedBytes.zero 32) := by
  cases h with
  | absent h => rw [h]; rfl
  | present made address => exact address

/-- A step that sets no address and keeps the peer's keeps the record. -/
theorem Recorded.keep {eid : UInt32} {steps : List (Node × Event)} {e : Node × Event}
    {old new : Option PeerConfig} (h : Recorded env eid steps old)
    (he : addressSet env eid e = none)
    (hnew : new.map (·.peerAddress) = old.map (·.peerAddress)) :
    Recorded env eid (steps ++ [e]) new := by
  have hlast := lastAddress_append env eid steps e
  rw [he, Option.none_or] at hlast
  cases h with
  | absent h =>
      rw [Option.map_none, Option.map_eq_none_iff] at hnew
      rw [hnew]
      exact .absent (hlast.trans h)
  | present made address =>
      rw [Option.map_some, Option.map_eq_some_iff] at hnew
      obtain ⟨p, rfl, hp⟩ := hnew
      obtain ⟨e', he', hmade⟩ := made
      exact .present ⟨e', List.mem_append_left _ he', hmade⟩ (by rw [hp, address, hlast])

/-- The address after a configuration: the one it sets, or the old one. -/
theorem peerAddress_updated {clock : Clock} {old peer : PeerConfig} {config : PeerConfigParam}
    (h : SetPeerConfig.Updated env clock old config peer) :
    peer.peerAddress = config.address?.getD old.peerAddress := by
  cases h <;> rfl

/-- A step that configures nothing and keeps the address keeps the record. -/
theorem Recorded.keep_of_none {eid : UInt32} {steps : List (Node × Event)} {e : Node × Event}
    {old new : Option PeerConfig} (h : Recorded env eid steps old) (he : configures env e = none)
    (hnew : new.map (·.peerAddress) = old.map (·.peerAddress)) :
    Recorded env eid (steps ++ [e]) new :=
  h.keep (addressSet_of_none he) hnew

/-- A transfer with a peer keeps the record: it writes limiters only. -/
theorem Recorded.keep_setPeer {eid eid' : UInt32} {steps : List (Node × Event)}
    {e : Node × Event} {n m : Node} {peer p : PeerConfig}
    (h : Recorded env eid steps (n.peers eid)) (he : configures env e = none)
    (hm : m.peers = n.peers) (hfound : n.peers eid' = some peer)
    (hp : p.peerAddress = peer.peerAddress) :
    Recorded env eid (steps ++ [e]) ((m.setPeer eid' p).peers eid) := by
  refine h.keep_of_none he ?_
  by_cases heid : eid = eid'
  · subst heid
    simp [setPeer, hfound, hp]
  · simp [setPeer, hm, heid]

/-- One step keeps the record of an endpoint id. -/
theorem Stepped.recorded {n n' : Node} {ev : Event} (h : Stepped env n ev n') (eid : UInt32)
    {steps : List (Node × Event)} (hn : Recorded env eid steps (n.peers eid)) :
    Recorded env eid (steps ++ [(n, ev)]) (n'.peers eid) := by
  cases h with
  | send run h =>
      rw [h.node]
      exact hn.keep_setPeer rfl rfl h.found rfl
  | lzReceive run list h =>
      rw [h.node]
      exact hn.keep_setPeer rfl rfl h.found rfl
  | setPeerConfig run h =>
      rename_i clock endpoint acc params peer
      have hset := addressSet_eq eid run
      rw [h.node]
      by_cases heid : params.remoteEid = eid
      · subst heid
        rw [if_pos rfl] at hset
        have hlast := lastAddress_append env params.remoteEid steps
          (n, .tx ⟨clock, endpoint, .setPeerConfig acc params⟩)
        rw [hset] at hlast
        simp only [setPeer, Function.update_self]
        refine .present ⟨_, List.mem_append_right _ (List.mem_singleton_self _), _, params, rfl,
          run, rfl, acc.admin, rfl, h.admin.symm, h.signed⟩ ?_
        rw [hlast]
        show peer.peerAddress = _
        rw [peerAddress_updated h.updated, hn.address_getD]
        cases params.config.address? <;> rfl
      · rw [if_neg heid] at hset
        refine hn.keep hset ?_
        simp [setPeer, Ne.symm heid]
  | setOftConfig h => exact hn.keep_of_none rfl (by rw [h.node])
  | withdrawFee _ h => exact hn.keep_of_none rfl (by rw [h.node])
  | setPause | external => exact hn.keep_of_none rfl rfl
  | idle h => exact hn.keep_of_none h.configures rfl

theorem recorded_final {eid : UInt32} {events : List Event} {n : Node}
    {steps : List (Node × Event)} (hn : Recorded env eid steps (n.peers eid)) :
    Recorded env eid (steps ++ Run.trace (step env) n events)
      ((Run.final (step env) n events).peers eid) := by
  induction events generalizing n steps with
  | nil => simpa using hn
  | cons ev events ih =>
      have hstep := ih ((stepped env n ev).recorded eid hn)
      rwa [List.append_assoc, List.singleton_append] at hstep

/-- Who a store sends to and takes from, in every state a run from
`init_oft` reaches: a send to `dst_eid` that passes the program's own checks
has an admin's configuration of that id behind it, and its message goes to
the address last set for it, or to all zeros when none was set; and the
account checks of `lz_receive` pass for a sender under the same conditions
only. -/
theorem peers_configured (env : Externals) (endpoint : Endpoint) (tokens : Tokens)
    (acc : InitOFT.Accounts) (remaining : List LzAccount) (params : InitOFTParams) (n : Node)
    (hinit : InitOFT.apply env endpoint tokens acc remaining params = .ok n)
    (events : List Event) :
    let steps := Run.trace (step env) n events
    let m := Run.final (step env) n events
    (∀ clock acc remaining params out,
      Send.prepare env clock m acc remaining params = .ok out →
        (∃ e ∈ steps, ConfiguredBy env params.dstEid e) ∧
        out.request.receiver =
          (lastAddress env params.dstEid steps).getD (FixedBytes.zero 32)) ∧
    ∀ acc params r, LzReceive.tryAccounts env m acc params = .ok r →
      (∃ e ∈ steps, ConfiguredBy env params.srcEid e) ∧
      params.sender = (lastAddress env params.srcEid steps).getD (FixedBytes.zero 32) := by
  intro steps m
  have hrecorded : ∀ eid peer, m.peers eid = some peer →
      (∃ e ∈ steps, ConfiguredBy env eid e) ∧
      peer.peerAddress = (lastAddress env eid steps).getD (FixedBytes.zero 32) := by
    intro eid peer hpeer
    have hstart : Recorded env eid [] (n.peers eid) := by
      rw [(InitOFT.initialized hinit).peers eid]
      exact .absent rfl
    have hend : Recorded env eid steps (m.peers eid) := recorded_final hstart
    rw [hpeer] at hend
    cases hend with
    | present made address => exact ⟨made, address⟩
  constructor
  · intro clock acc remaining params out hout
    obtain ⟨peer, outbound, inbound, h⟩ := Send.prepared hout
    rw [h.receiver]
    exact hrecorded _ peer h.found
  · intro acc params r hr
    have hconstrained := LzReceive.constrained hr
    rw [← hconstrained.sender]
    exact hrecorded _ r.1 hconstrained.found

/-- A peer whose fee is set, and then its address. -/
def peersRun : List Event := [
  .sample 0 (.sampleSetPeer 30101 (.feeBps (some 50))),
  .sample 0 (.sampleSetPeer 30101 (.peerAddress (Pubkey.ofByte 40)))]

/-- The store of the examples. -/
def peersStore : Node := sample .adapter (.sample 5000000 .default none)

theorem peersStore_init : InitOFT.apply .sample .sample (.sample 5000000 .default none) .sample []
    ⟨.adapter, .ofByte 13, 6, none⟩ = .ok peersStore := rfl

theorem peers_configured_example :
    ∃ out, Send.prepare .sample ⟨1, 0⟩ (Run.final (step .sample) peersStore peersRun)
        (Instruction.sampleAccounts 30101) Instruction.sampleRemaining
        (Instruction.sampleParams 30101 2000) = .ok out ∧
      out.request.receiver = Pubkey.ofByte 40 := by
  have hok : (Send.prepare .sample ⟨1, 0⟩ (Run.final (step .sample) peersStore peersRun)
      (Instruction.sampleAccounts 30101) Instruction.sampleRemaining
      (Instruction.sampleParams 30101 2000)).isOk := by decide +kernel
  obtain ⟨out, hout⟩ := Except.exists_eq_ok_of_isOk hok
  obtain ⟨hsend, -⟩ := peers_configured _ _ _ _ _ _ _ peersStore_init peersRun
  have hlast : lastAddress .sample 30101 (Run.trace (step .sample) peersStore peersRun) =
      some (Pubkey.ofByte 40) := by decide +kernel
  refine ⟨out, hout, (hsend _ _ _ _ _ hout).2.trans ?_⟩
  rw [show (Instruction.sampleParams 30101 2000).dstEid = 30101 from rfl, hlast]
  rfl

/-- The address need not have been set: after the first of the two steps a
send passes, and its message goes to all zeros. -/
theorem send_to_unset_peer :
    InitOFT.apply .sample .sample (.sample 5000000 .default none) .sample []
      ⟨.adapter, .ofByte 13, 6, none⟩ = .ok peersStore ∧
    ¬ ∀ clock acc remaining params out,
      Send.prepare .sample clock (Run.final (step .sample) peersStore (peersRun.take 1)) acc
        remaining params = .ok out →
      lastAddress .sample params.dstEid
        (Run.trace (step .sample) peersStore (peersRun.take 1)) = some out.request.receiver := by
  refine ⟨peersStore_init, fun hclaim => ?_⟩
  have hok : (Send.prepare .sample ⟨1, 0⟩
      (Run.final (step .sample) peersStore (peersRun.take 1)) (Instruction.sampleAccounts 30101)
      Instruction.sampleRemaining (Instruction.sampleParams 30101 2000)).isOk := by decide +kernel
  obtain ⟨out, hout⟩ := Except.exists_eq_ok_of_isOk hok
  have hset := hclaim _ _ _ _ _ hout
  have hunset : lastAddress .sample 30101
      (Run.trace (step .sample) peersStore (peersRun.take 1)) = none := by decide +kernel
  rw [show (Instruction.sampleParams 30101 2000).dstEid = 30101 from rfl, hunset] at hset
  contradiction

end Node

end CrossChain
