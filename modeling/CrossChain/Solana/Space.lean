import CrossChain.Solana.Program

/-!
# CrossChain.Solana.Space

The room of a peer account.

The account is allocated for enforced options of `max_len` bytes each, both
limiters and a fee.  `set_peer_config` compares no length with its
`max_len`; what fails is the write of a peer that is too long as a whole.  So
the total is kept in every run (`fits_final`), while the options keep their
bounds in the runs that set no others (`bounded_final`), and only there can
every later configuration be written.
-/

namespace CrossChain

/-! ## bounds of the options -/

/-- Both vectors are within their `max_len`. -/
def EnforcedOptions.Bounded (o : EnforcedOptions) : Prop :=
  o.send.length ≤ ENFORCED_OPTIONS_SEND_MAX_LEN ∧
    o.sendAndCall.length ≤ ENFORCED_OPTIONS_SEND_AND_CALL_MAX_LEN

instance : DecidablePred EnforcedOptions.Bounded :=
  fun _ => inferInstanceAs (Decidable (_ ∧ _))

/-- The options that a parameter sets, if it sets any, are within bounds. -/
def PeerConfigParam.Bounded : PeerConfigParam → Prop
  | .enforcedOptions send sendAndCall => EnforcedOptions.Bounded ⟨send, sendAndCall⟩
  | _ => True

namespace PeerConfig

/-- The peer can be written to its account. -/
def Fits (p : PeerConfig) : Prop := p.serializedSize ≤ INIT_SPACE

instance : DecidablePred Fits := fun _ => inferInstanceAs (Decidable (_ ≤ _))

theorem optionSize_le {α : Type} (size : ℕ) (x : Option α) : optionSize size x ≤ 1 + size := by
  unfold optionSize
  split <;> omega

/-- Options within their bounds leave room for everything else. -/
theorem fits_of_bounded {p : PeerConfig} (h : p.enforcedOptions.Bounded) : p.Fits := by
  obtain ⟨hsend, hsendAndCall⟩ := h
  have houtbound := optionSize_le RATE_LIMITER_SPACE p.outboundRateLimiter
  have hinbound := optionSize_le RATE_LIMITER_SPACE p.inboundRateLimiter
  have hfee := optionSize_le 2 p.feeBps
  unfold Fits serializedSize INIT_SPACE
  omega

end PeerConfig

/-! ## one configuration -/

namespace SetPeerConfig

variable {env : Externals} {clock : Clock}

/-- A configuration leaves the options alone or sets them. -/
theorem Updated.bounded_iff {old peer : PeerConfig} {config : PeerConfigParam}
    (h : Updated env clock old config peer) (hold : old.enforcedOptions.Bounded) :
    peer.enforcedOptions.Bounded ↔ config.Bounded := by
  cases h with
  | enforcedOptions => exact Iff.rfl
  | peerAddress | feeBps | outboundRateLimit | inboundRateLimit => exact iff_of_true hold trivial

/-- The parameters pass the checks of the handler: everything but the write
succeeds. -/
def Passes (env : Externals) (clock : Clock) (n : Node) (acc : Accounts)
    (params : SetPeerConfigParams) : Prop :=
  ∃ old bump peer, tryAccounts env n acc params = .ok (old, bump) ∧
    update env clock old params.config = .ok peer

/-- What a configuration wrote. -/
structure Stored (env : Externals) (clock : Clock) (n : Node) (params : SetPeerConfigParams)
    (p : PeerConfig) : Prop where
  updated : ∃ peer, Updated env clock ((n.peers params.remoteEid).getD .zeroed) params.config
    peer ∧ p.enforcedOptions = peer.enforcedOptions
  fits : p.Fits

/-- The peer that a configuration starts from. -/
theorem old_of_tryAccounts {n : Node} {acc : Accounts} {params : SetPeerConfigParams}
    {old : PeerConfig} {bump : UInt8} (h : tryAccounts env n acc params = .ok (old, bump)) :
    (n.peers params.remoteEid).getD .zeroed = old := by
  simp only [tryAccounts, Except.bind_eq_ok, Except.require_eq_ok, Except.pure_eq_ok] at h
  obtain ⟨-, -, -, -, -, -, -, -, -, -, hpair⟩ := h
  exact (Prod.mk.inj hpair).1

theorem stored {n n' : Node} {acc : Accounts} {params : SetPeerConfigParams}
    (h : apply env clock n acc params = .ok n') :
    ∃ p, Stored env clock n params p ∧ n' = n.setPeer params.remoteEid p := by
  simp only [apply, Except.bind_eq_ok, Except.require_eq_ok, Except.pure_eq_ok] at h
  obtain ⟨⟨old, bump⟩, haccounts, peer, hupdate, -, hfits, rfl⟩ := h
  rw [← old_of_tryAccounts haccounts] at hupdate
  exact ⟨{ peer with bump }, ⟨⟨peer, updated hupdate, rfl⟩, hfits⟩, rfl⟩

/-- With bounded options of its own and on the peer, a configuration that
passes the checks can be written. -/
theorem isOk_of_bounded {n : Node} {acc : Accounts} {params : SetPeerConfigParams}
    (hold : ((n.peers params.remoteEid).getD .zeroed).enforcedOptions.Bounded)
    (hconfig : params.config.Bounded) (h : Passes env clock n acc params) :
    (apply env clock n acc params).isOk := by
  obtain ⟨old, bump, peer, haccounts, hupdate⟩ := h
  rw [old_of_tryAccounts haccounts] at hold
  have hpeer := ((updated hupdate).bounded_iff hold).mpr hconfig
  have hfits : ({ peer with bump } : PeerConfig).Fits := PeerConfig.fits_of_bounded hpeer
  have hrun : apply env clock n acc params =
      .ok (n.setPeer params.remoteEid { peer with bump }) := by
    simp only [apply, Except.bind_eq_ok, Except.require_eq_ok, Except.pure_eq_ok]
    exact ⟨(old, bump), haccounts, peer, hupdate, (), hfits, rfl⟩
  rw [hrun]
  rfl

end SetPeerConfig

/-! ## what a step writes to a peer -/

namespace Node

variable (env : Externals)

/-- The peer of an endpoint id after a step: as it was, with its limiters
written back, or as a configuration stored it. -/
inductive Rewritten (n : Node) (ev : Event) (eid : UInt32) : Option PeerConfig → Prop
  | kept : Rewritten n ev eid (n.peers eid)
  | limiters {peer : PeerConfig} {outbound inbound : Option RateLimiter}
      (found : n.peers eid = some peer)
      (outboundKept : outbound.isSome = peer.outboundRateLimiter.isSome)
      (inboundKept : inbound.isSome = peer.inboundRateLimiter.isSome) :
      Rewritten n ev eid
        (some { peer with outboundRateLimiter := outbound, inboundRateLimiter := inbound })
  | configured {clock : Clock} {params : SetPeerConfigParams} {p : PeerConfig}
      (run : configures env (n, ev) = some params) (remoteEid : params.remoteEid = eid)
      (stored : SetPeerConfig.Stored env clock n params p) : Rewritten n ev eid (some p)

variable {env}

/-- A step that writes one peer rewrites that one only. -/
theorem Rewritten.setPeer {n m : Node} {ev : Event} {eid eid' : UInt32} {p : PeerConfig}
    (hm : m.peers = n.peers) (h : Rewritten env n ev eid' (some p)) :
    Rewritten env n ev eid ((m.setPeer eid' p).peers eid) := by
  by_cases heid : eid = eid'
  · subst heid
    simpa only [Node.setPeer, Function.update_self] using h
  · simp only [Node.setPeer, Function.update_of_ne heid, hm]
    exact .kept

theorem rewritten_of_exec {n n' : Node} {tx : Tx} (h : n.exec env tx = .ok n') (eid : UInt32) :
    Rewritten env n (.tx tx) eid (n'.peers eid) := by
  cases stepped_of_exec h with
  | send _ hp =>
      rw [hp.node]
      exact .setPeer rfl (.limiters hp.found (isSome_onLimiter hp.consumed)
        (isSome_onLimiter hp.refilled))
  | lzReceive _ _ hd =>
      rw [hd.node]
      exact .setPeer rfl (.limiters hd.found (isSome_onLimiter hd.refilled)
        (isSome_onLimiter hd.consumed))
  | setPeerConfig run =>
      obtain ⟨p, hstored, rfl⟩ := SetPeerConfig.stored h
      exact .setPeer rfl (.configured run rfl hstored)
  | setOftConfig hc => rw [hc.node]; exact .kept
  | withdrawFee _ hw => rw [hw.node]; exact .kept
  | setPause | idle => exact .kept

variable (env) in
/-- Every step rewrites a peer in one of these ways. -/
theorem rewritten (n : Node) (ev : Event) (eid : UInt32) :
    Rewritten env n ev eid ((n.step env ev).peers eid) := by
  cases ev with
  | tx tx =>
      cases h : n.exec env tx with
      | ok n' =>
          rw [step_of_exec env h]
          exact rewritten_of_exec h eid
      | error e =>
          rw [step_of_error env h]
          exact .kept
  | external tokens =>
      have hstep : (n.step env (.external tokens)).peers = n.peers := by
        rw [step]
        split <;> rfl
      rw [hstep]
      exact .kept

/-! ## what every run keeps -/

/-- All peers of a store have the property. -/
def EveryPeer (P : PeerConfig → Prop) (n : Node) : Prop :=
  ∀ eid p, n.peers eid = some p → P p

theorem everyPeer_of_created {P : PeerConfig → Prop} {n : Node} (h : InitOFT.Created env n) :
    n.EveryPeer P := by
  obtain ⟨endpoint, tokens, acc, remaining, params, happly⟩ := h
  intro eid p hp
  rw [(InitOFT.initialized happly).peers eid] at hp
  contradiction

/-- A property of all peers is kept by a step when writing limiters back keeps
it and what a configuration stores has it. -/
theorem EveryPeer.step {P : PeerConfig → Prop} {n : Node} {ev : Event} (hn : n.EveryPeer P)
    (hlimiters : ∀ peer outbound inbound, outbound.isSome = peer.outboundRateLimiter.isSome →
      inbound.isSome = peer.inboundRateLimiter.isSome → P peer →
        P { peer with outboundRateLimiter := outbound, inboundRateLimiter := inbound })
    (hstored : ∀ clock params p, configures env (n, ev) = some params →
      SetPeerConfig.Stored env clock n params p → P p) : (n.step env ev).EveryPeer P := by
  intro eid p hp
  have h := rewritten env n ev eid
  -- the cases are on what the new peer is, so it has to be a variable
  generalize (n.step env ev).peers eid = new at h hp
  cases h with
  | kept => exact hn eid p hp
  | limiters found houtbound hinbound =>
      rw [← Option.some.inj hp]
      exact hlimiters _ _ _ houtbound hinbound (hn eid _ found)
  | configured run _ stored =>
      rw [← Option.some.inj hp]
      exact hstored _ _ _ run stored

/-- A peer with its limiters written back is as long as before. -/
theorem serializedSize_limiters {peer : PeerConfig} {outbound inbound : Option RateLimiter}
    (houtbound : outbound.isSome = peer.outboundRateLimiter.isSome)
    (hinbound : inbound.isSome = peer.inboundRateLimiter.isSome) :
    PeerConfig.serializedSize
      { peer with outboundRateLimiter := outbound, inboundRateLimiter := inbound } =
      peer.serializedSize := by
  simp only [PeerConfig.serializedSize, PeerConfig.optionSize, houtbound, hinbound]

/-- In every state a run reaches, every peer can be written to its account:
transfers never fail for want of room. -/
theorem fits_final {n : Node} (h : InitOFT.Created env n) (events : List Event) :
    (Run.final (step env) n events).EveryPeer PeerConfig.Fits := by
  refine Run.final_of_step (I := EveryPeer PeerConfig.Fits) (fun m ev hm => ?_)
    (everyPeer_of_created h) events
  refine hm.step (fun peer outbound inbound houtbound hinbound hfits => ?_)
    fun _ _ _ _ hstored => hstored.fits
  rw [PeerConfig.Fits, serializedSize_limiters houtbound hinbound]
  exact hfits

/-- The options of every peer are within their bounds. -/
def Bounded (n : Node) : Prop := n.EveryPeer fun p => p.enforcedOptions.Bounded

/-- The step, if it is a configuration, sets no options out of bounds. -/
def SetsBounded (env : Externals) (e : Node × Event) : Prop :=
  ∀ params, configures env e = some params → params.config.Bounded

/-- Every configuration with bounded options that passes the checks can be
written. -/
def Configurable (env : Externals) (n : Node) : Prop :=
  ∀ clock acc params, params.config.Bounded → SetPeerConfig.Passes env clock n acc params →
    (SetPeerConfig.apply env clock n acc params).isOk

/-- What a configuration starts from has bounded options. -/
theorem Bounded.getD {n : Node} (hn : n.Bounded) (eid : UInt32) :
    ((n.peers eid).getD .zeroed).enforcedOptions.Bounded := by
  cases h : n.peers eid with
  | none => exact ⟨Nat.zero_le _, Nat.zero_le _⟩
  | some p => exact hn eid p h

theorem Bounded.configurable {n : Node} (hn : n.Bounded) : n.Configurable env :=
  fun _ _ _ hconfig hpasses => SetPeerConfig.isOk_of_bounded (hn.getD _) hconfig hpasses

theorem Bounded.step {n : Node} {ev : Event} (hn : n.Bounded) (hev : SetsBounded env (n, ev)) :
    (n.step env ev).Bounded := by
  refine EveryPeer.step hn (fun _ _ _ _ _ hpeer => hpeer) fun clock params p run hstored => ?_
  obtain ⟨peer, hupdated, hoptions⟩ := hstored.updated
  rw [hoptions]
  exact (hupdated.bounded_iff (hn.getD _)).mpr (hev params run)

/-- Options stay within bounds in a run that sets no others. -/
theorem bounded_final {n : Node} (hn : n.Bounded) {events : List Event}
    (h : ∀ e ∈ Run.trace (Node.step env) n events, SetsBounded env e) :
    (Run.final (Node.step env) n events).Bounded :=
  Run.final_inv_of_trace (fun _ _ hm hev => hm.step hev) hn h

/-- The configuration of a step. -/
theorem apply_of_configures {n : Node} {ev : Event} {params : SetPeerConfigParams}
    (h : configures env (n, ev) = some params) :
    ∃ clock acc, SetPeerConfig.apply env clock n acc params = .ok (n.step env ev) := by
  cases ev with
  | external tokens => contradiction
  | tx tx =>
      obtain ⟨clock, endpoint, instruction⟩ := tx
      cases instruction with
      | setPeerConfig acc params' =>
          cases hrun : SetPeerConfig.apply env clock n acc params' with
          | ok n' =>
              rw [configures, hrun] at h
              have hparams : params' = params := Option.some.inj h
              have hexec : n.exec env ⟨clock, endpoint, .setPeerConfig acc params'⟩ = .ok n' := hrun
              refine ⟨clock, acc, ?_⟩
              rw [← hparams, hrun, step_of_exec env hexec]
          | error e =>
              rw [configures, hrun] at h
              contradiction
      | send | lzReceive | lzReceiveTypes | quoteOft | quoteSend | setOftConfig | setPause
      | withdrawFee => contradiction

/-- Options out of bounds are on the peer after the step that sets them. -/
theorem setsBounded_of_step {n : Node} {ev : Event} (hn : n.Bounded)
    (h : (n.step env ev).Bounded) : SetsBounded env (n, ev) := by
  intro params run
  obtain ⟨clock, acc, happly⟩ := apply_of_configures run
  obtain ⟨p, hstored, hnode⟩ := SetPeerConfig.stored happly
  obtain ⟨peer, hupdated, hoptions⟩ := hstored.updated
  have hp : p.enforcedOptions.Bounded := by
    refine h params.remoteEid p ?_
    rw [hnode, setPeer]
    exact Function.update_self ..
  rw [hoptions] at hp
  exact (hupdated.bounded_iff (hn.getD _)).mp hp

/-- The options of every peer keep their bounds in every state that a run
from `init_oft` reaches, and every later configuration with bounded options
that passes the checks can be written, just when no step of the run sets
options out of bounds. -/
theorem bounded_iff_setsBounded (env : Externals) (n : Node) (hinit : InitOFT.Created env n)
    (events : List Event) :
    (∀ before, before <+: events →
      (Run.final (step env) n before).Bounded ∧
        (Run.final (step env) n before).Configurable env) ↔
      ∀ e ∈ Run.trace (step env) n events, SetsBounded env e := by
  constructor
  · intro h e he
    obtain ⟨before, after, hevents, hstate⟩ := Run.mem_trace (step env) he
    obtain ⟨m, ev⟩ := e
    obtain ⟨hbefore, -⟩ := h before ⟨_, hevents.symm⟩
    obtain ⟨hafter, -⟩ := h (before ++ [ev]) ⟨after, by simp [hevents]⟩
    rw [Run.final_append, Run.final_cons, Run.final_nil, ← hstate] at hafter
    rw [← hstate] at hbefore
    exact setsBounded_of_step hbefore hafter
  · rintro h before ⟨after, rfl⟩
    rw [Run.trace_append] at h
    have hbounded := bounded_final (everyPeer_of_created hinit)
      fun e he => h e (List.mem_append_left _ he)
    exact ⟨hbounded, hbounded.configurable⟩

/-- The store of the examples. -/
def spaceStore : Node := sample .adapter (.sample 5000000 .default none)

theorem created_spaceStore : InitOFT.Created .sample spaceStore :=
  ⟨.sample, .sample 5000000 .default none, .sample, [], ⟨.adapter, .ofByte 13, 6, none⟩, rfl⟩

/-- The accounts of the admin's configurations. -/
def spaceAccounts : SetPeerConfig.Accounts :=
  ⟨.signer (.ofByte 13), Instruction.samplePeer 30101, .readonly sampleKey, .readonly .default⟩

/-- The admin sets options of these lengths. -/
def setOptions (send sendAndCall : ℕ) : Event :=
  .sample 0 (.sampleSetPeer 30101
    (.enforcedOptions (0 :: 3 :: List.replicate send 0) (0 :: 3 :: List.replicate sendAndCall 0)))

theorem setsBounded_setOptions {n : Node} {send sendAndCall : ℕ} (hsend : send ≤ 510)
    (hsendAndCall : sendAndCall ≤ 1022) :
    SetsBounded .sample (n, setOptions send sendAndCall) := by
  intro params hrun
  obtain ⟨-, -, rfl⟩ := Option.map_eq_some_iff.mp hrun
  show EnforcedOptions.Bounded _
  simp only [EnforcedOptions.Bounded, List.length_cons, List.length_replicate,
    ENFORCED_OPTIONS_SEND_MAX_LEN, ENFORCED_OPTIONS_SEND_AND_CALL_MAX_LEN]
  omega

/-- Options as long as they may be, and then the shortest. -/
theorem bounded_iff_setsBounded_example :
    (Run.final (step .sample) spaceStore [setOptions 510 1022, setOptions 0 0]).Bounded ∧
      (Run.final (step .sample) spaceStore [setOptions 510 1022, setOptions 0 0]).Configurable
        .sample := by
  have hset : ∀ e ∈ Run.trace (step .sample) spaceStore [setOptions 510 1022, setOptions 0 0],
      SetsBounded .sample e := by
    intro e he
    simp only [Run.trace_cons, Run.trace_nil, List.mem_cons, List.not_mem_nil, or_false] at he
    rcases he with rfl | rfl <;> exact setsBounded_setOptions (by omega) (by omega)
  exact (bounded_iff_setsBounded _ _ created_spaceStore _).mpr hset _ List.prefix_rfl

/-- 600 bytes of options for `send` alone are stored; and after 1600 of them
the peer has no room for a fee any more, though no bound stands against it. -/
theorem options_out_of_bounds :
    InitOFT.Created .sample spaceStore ∧
    ¬ (Run.final (step .sample) spaceStore [setOptions 598 0]).Bounded ∧
    ¬ (Run.final (step .sample) spaceStore [setOptions 1598 0]).Configurable .sample := by
  refine ⟨created_spaceStore, fun hclaim => ?_, fun hclaim => ?_⟩
  · have hlength : ((Run.final (step .sample) spaceStore [setOptions 598 0]).peers 30101).map
        (·.enforcedOptions.send.length) = some 600 := by decide +kernel
    obtain ⟨p, hp, hsend⟩ := Option.map_eq_some_iff.mp hlength
    obtain ⟨hle, -⟩ := hclaim 30101 p hp
    rw [hsend] at hle
    exact absurd hle (by decide)
  · have haccounts : (SetPeerConfig.tryAccounts .sample
        (Run.final (step .sample) spaceStore [setOptions 1598 0]) spaceAccounts
        ⟨30101, .feeBps (some 50)⟩).isOk := by decide +kernel
    obtain ⟨⟨old, bump⟩, hold⟩ := Except.exists_eq_ok_of_isOk haccounts
    have hok := hclaim ⟨0, 0⟩ spaceAccounts ⟨30101, .feeBps (some 50)⟩ trivial
      ⟨old, bump, { old with feeBps := some 50 }, hold, rfl⟩
    revert hok
    decide +kernel

end Node

end CrossChain
