import CrossChain.Solana.Limits

/-!
# CrossChain.Solana.Governance

Who can change what, and what a pause stops.

The roles change along a run, so every statement is about one step and the
roles of the state it is taken in; `Governed` collects them, and
`governed_run` carries them to every step of every run.
-/

namespace CrossChain

/-- The instructions a pause stops. -/
def Instruction.pausable : Instruction → Bool
  | send _ _ _ | lzReceive _ _ | quoteOft _ _ | quoteSend _ _ _ => true
  | _ => false

namespace Node

variable (env : Externals)

/-- What a step leaves alone while the bridge is paused.  The supply and the
escrow also change by other programs' instructions, which are no
transactions of this one. -/
structure Frozen (n : Node) (ev : Event) (n' : Node) : Prop where
  fails : ∀ tx, ev = .tx tx → tx.instruction.pausable → ∃ e, n.exec env tx = .error e
  tvlLd : n'.store.tvlLd = n.store.tvlLd
  supply : ∀ tx, ev = .tx tx → n'.tokens.mint.supply = n.tokens.mint.supply
  limiters : (∀ side eid, n'.limiterAt side eid = n.limiterAt side eid) ∨
    ∃ tx acc params, ev = .tx tx ∧ tx.instruction = .setPeerConfig acc params ∧
      tx.SignedBy n.store.admin
  escrow : ∀ tx, ev = .tx tx →
    n'.tokens.balance n.store.tokenEscrow = n.tokens.balance n.store.tokenEscrow ∨
      (∃ acc params, tx.instruction = .withdrawFee acc params) ∧ tx.SignedBy n.store.admin ∧
        n'.store.tvlLd.toNat ≤ n'.tokens.balance n.store.tokenEscrow

/-- What a step may change, and who must have signed it. -/
structure Governed (n : Node) (ev : Event) (n' : Node) : Prop where
  frozen : n.store.paused = true → Frozen env n ev n'
  pause : n.store.paused = false → n'.store.paused = true → ∃ tx, ev = .tx tx ∧
    (tx.SignedBy n.store.admin ∨ ∃ k ∈ n.store.pauser, tx.SignedBy k)
  unpause : n.store.paused = true → n'.store.paused = false → ∃ tx, ev = .tx tx ∧
    (tx.SignedBy n.store.admin ∨ ∃ k ∈ n.store.unpauser, tx.SignedBy k)
  setPause : ∀ tx acc params, ev = .tx tx → tx.instruction = .setPause acc params →
    n' = { n with store := { n.store with paused := n'.store.paused } }
  roles : n'.store.roles ≠ n.store.roles → ∃ tx, ev = .tx tx ∧ tx.SignedBy n.store.admin
  peers : ∀ eid, (n'.peers eid).map PeerConfig.settings ≠ (n.peers eid).map PeerConfig.settings →
    ∃ tx, ev = .tx tx ∧ tx.SignedBy n.store.admin
  origin : n'.store.origin = n.store.origin

variable {env}

/-- What a pause stops checks the flag itself. -/
theorem running_of_exec {n n' : Node} {tx : Tx} (h : n.exec env tx = .ok n')
    (hpausable : tx.instruction.pausable) : n.store.paused = false := by
  obtain ⟨clock, endpoint, instruction⟩ := tx
  cases instruction with
  | send acc remaining params =>
      obtain ⟨r, hrun, -⟩ := Except.bind_eq_ok.mp h
      obtain ⟨peer, outbound, inbound, hp⟩ := Send.prepared (Send.apply_eq_ok hrun).1
      exact hp.running
  | lzReceive accounts params =>
      obtain ⟨out, hrun, -⟩ := Except.bind_eq_ok.mp h
      obtain ⟨acc, remaining, -, hdeliver⟩ := LzReceive.apply_eq_ok hrun
      obtain ⟨peer, outbound, inbound, opened, amountSd, amountLd, hd⟩ :=
        LzReceive.delivered hdeliver
      exact hd.running
  | quoteOft =>
      obtain ⟨r, hrun, -⟩ := Except.bind_eq_ok.mp h
      exact QuoteOFT.running_of_apply hrun
  | quoteSend =>
      obtain ⟨r, hrun, -⟩ := Except.bind_eq_ok.mp h
      exact QuoteSend.running_of_apply hrun
  | lzReceiveTypes | setOftConfig | setPeerConfig | setPause | withdrawFee => contradiction

theorem exec_error_of_paused {n : Node} {tx : Tx} (hpaused : n.store.paused = true)
    (hpausable : tx.instruction.pausable) : ∃ e, n.exec env tx = .error e := by
  cases h : n.exec env tx with
  | error e => exact ⟨e, rfl⟩
  | ok n' =>
      have hrunning := running_of_exec h hpausable
      rw [hpaused] at hrunning
      contradiction

theorem Stepped.frozen {n n' : Node} {ev : Event} (h : Stepped env n ev n')
    (hpaused : n.store.paused = true) : Frozen env n ev n' := by
  have hfails : ∀ tx, ev = .tx tx → tx.instruction.pausable → ∃ e, n.exec env tx = .error e :=
    fun _ _ => exec_error_of_paused hpaused
  cases h with
  | send _ h => have := h.running; rw [hpaused] at this; contradiction
  | lzReceive _ _ h => have := h.running; rw [hpaused] at this; contradiction
  | setOftConfig h =>
      have htokens : n'.tokens = n.tokens := by rw [h.node]
      exact {
        fails := hfails
        tvlLd := h.tvlLd
        supply := fun _ _ => by rw [htokens]
        limiters := .inl fun _ _ => by rw [h.node]; rfl
        escrow := fun _ _ => .inl (by rw [htokens]) }
  | setPeerConfig run h =>
      rename_i clock endpoint acc params peer
      have htokens : n'.tokens = n.tokens := by rw [h.node]; rfl
      exact {
        fails := hfails
        tvlLd := by rw [h.node]; rfl
        supply := fun _ _ => by rw [htokens]
        limiters := .inr ⟨_, acc, params, rfl, rfl, acc.admin, rfl, h.admin.symm, h.signed⟩
        escrow := fun _ _ => .inl (by rw [htokens]) }
  | withdrawFee run h =>
      rename_i clock endpoint acc params
      have hstore : n'.store = n.store := by rw [h.node]
      exact {
        fails := hfails
        tvlLd := by rw [hstore]
        supply := fun _ _ => by rw [h.moved.mint]
        limiters := .inl fun _ _ => by rw [h.node]; rfl
        escrow := by
          rintro tx ⟨⟩
          by_cases hself : n.store.tokenEscrow = acc.tokenDest.pubkey
          · exact .inl (by rw [h.moved.balance_of_self hself])
          · have hdebit := h.moved.debited hself
            have hcovered := h.covered
            refine .inr ⟨⟨acc, params, rfl⟩, ⟨acc.admin, rfl, h.admin.symm, h.signed⟩, ?_⟩
            rw [hstore]
            omega }
  | setPause | idle =>
      exact ⟨hfails, rfl, fun _ _ => rfl, .inl fun _ _ => rfl, fun _ _ => .inl rfl⟩
  | external =>
      exact ⟨hfails, rfl, fun _ hev => (nomatch hev), .inl fun _ _ => rfl,
        fun _ hev => (nomatch hev)⟩

/-- A touched limiter keeps its capacity and its rate. -/
theorem settings_onLimiter {old new : Option RateLimiter} {clock : Clock} (op : RateLimiter.Op)
    (h : onLimiter old (·.apply clock op) = .ok new)
    (hop : (∃ a, op = .tryConsume a) ∨ ∃ e, op = .refill e) :
    new.map (fun l => (l.capacity, l.refillPerSecond)) =
      old.map fun l => (l.capacity, l.refillPerSecond) := by
  cases old with
  | none => rw [onLimiter_none.mp h]
  | some l =>
      obtain ⟨l', hrun, rfl⟩ := onLimiter_some.mp h
      obtain ⟨now, hclock⟩ := RateLimiter.exists_currentTime_of_apply op hrun
      rcases hop with ⟨a, rfl⟩ | ⟨e, rfl⟩
      · rw [RateLimiter.apply, RateLimiter.tryConsume_eq hclock] at hrun
        split at hrun
        · rw [← (Prod.mk.inj hrun).2]
          rfl
        · exact absurd (Prod.mk.inj hrun).1 (by simp)
      · rw [RateLimiter.apply, RateLimiter.refill_eq hclock] at hrun
        rw [← (Prod.mk.inj hrun).2]
        rfl

/-- A transfer with a peer keeps what the admin set. -/
theorem settings_setPeer {n m : Node} {eid eid' : UInt32} {peer p : PeerConfig}
    (hm : m.peers = n.peers) (hfound : n.peers eid' = some peer)
    (hp : p.settings = peer.settings) :
    ((m.setPeer eid' p).peers eid).map PeerConfig.settings =
      (n.peers eid).map PeerConfig.settings := by
  by_cases heid : eid = eid'
  · subst heid
    simp [setPeer, hfound, hp]
  · simp [setPeer, hm, heid]

theorem Stepped.peers {n n' : Node} {ev : Event} (h : Stepped env n ev n') (eid : UInt32) :
    (n'.peers eid).map PeerConfig.settings = (n.peers eid).map PeerConfig.settings ∨
      ∃ tx, ev = .tx tx ∧ tx.SignedBy n.store.admin := by
  cases h with
  | send _ h =>
      have hout := settings_onLimiter (.tryConsume _) h.consumed (.inl ⟨_, rfl⟩)
      have hin := settings_onLimiter (.refill _) h.refilled (.inr ⟨_, rfl⟩)
      left
      rw [h.node]
      refine settings_setPeer rfl h.found ?_
      simp only [PeerConfig.settings, hout, hin]
  | lzReceive _ _ h =>
      have hin := settings_onLimiter (.tryConsume _) h.consumed (.inl ⟨_, rfl⟩)
      have hout := settings_onLimiter (.refill _) h.refilled (.inr ⟨_, rfl⟩)
      left
      rw [h.node]
      refine settings_setPeer rfl h.found ?_
      simp only [PeerConfig.settings, hout, hin]
  | setPeerConfig run h =>
      rename_i clock endpoint acc params peer
      exact .inr ⟨⟨clock, endpoint, .setPeerConfig acc params⟩, rfl, acc.admin, rfl, h.admin.symm,
        h.signed⟩
  | setOftConfig h => exact .inl (by rw [h.node])
  | withdrawFee _ h => exact .inl (by rw [h.node])
  | setPause | external | idle => exact .inl rfl

/-- The configuration of a store changes under its admin's signature, the
flag also under its pauser's or unpauser's. -/
theorem Stepped.store {n n' : Node} {ev : Event} (h : Stepped env n ev n') :
    (n'.store.roles = n.store.roles ∧ n'.store.paused = n.store.paused) ∨
    (∃ tx, ev = .tx tx ∧ tx.SignedBy n.store.admin) ∨
    n'.store.roles = n.store.roles ∧ ∃ tx acc params, ev = .tx tx ∧
      tx.instruction = .setPause acc params ∧ tx.SignedBy acc.signer.pubkey ∧
      SetPause.isValidSigner acc.signer.pubkey n.store n'.store.paused := by
  cases h with
  | send _ h => exact .inl (by rw [h.node]; exact ⟨rfl, rfl⟩)
  | lzReceive _ _ h => exact .inl (by rw [h.node]; exact ⟨rfl, rfl⟩)
  | setOftConfig h =>
      rename_i clock endpoint acc remaining params
      exact .inr (.inl ⟨⟨clock, endpoint, .setOftConfig acc remaining params⟩, rfl, acc.admin, rfl,
        h.admin.symm, h.signed⟩)
  | setPeerConfig _ h => exact .inl (by rw [h.node]; exact ⟨rfl, rfl⟩)
  | setPause signed valid =>
      rename_i clock endpoint acc params
      exact .inr (.inr ⟨rfl, ⟨clock, endpoint, .setPause acc params⟩, acc, params, rfl, rfl,
        ⟨acc.signer, rfl, rfl, signed⟩, valid⟩)
  | withdrawFee _ h => exact .inl (by rw [h.node]; exact ⟨rfl, rfl⟩)
  | external | idle => exact .inl ⟨rfl, rfl⟩

/-- The flag changes under the signature of the admin, or of the role that
may set it as it is then. -/
theorem Stepped.flag {n n' : Node} {ev : Event} (h : Stepped env n ev n')
    (hne : n'.store.paused ≠ n.store.paused) : ∃ tx, ev = .tx tx ∧
      (tx.SignedBy n.store.admin ∨
        ∃ k, SetPause.isValidSigner k n.store n'.store.paused ∧ tx.SignedBy k) := by
  rcases h.store with
    ⟨-, hsame⟩ | ⟨tx, hev, hsigned⟩ | ⟨-, tx, acc, params, hev, -, hsigned, hvalid⟩
  · exact absurd hsame hne
  · exact ⟨tx, hev, .inl hsigned⟩
  · exact ⟨tx, hev, .inr ⟨acc.signer.pubkey, hvalid, hsigned⟩⟩

/-- A `set_pause` step writes the flag and nothing else. -/
theorem step_setPause (n : Node) (clock : Clock) (endpoint : Endpoint) (acc : SetPause.Accounts)
    (params : SetPauseParams) :
    let n' := n.step env (.tx ⟨clock, endpoint, .setPause acc params⟩)
    n' = { n with store := { n.store with paused := n'.store.paused } } := by
  intro n'
  cases h : n.exec env ⟨clock, endpoint, .setPause acc params⟩ with
  | error e =>
      have hn' : n' = n := step_of_error env h
      rw [hn']
  | ok m =>
      have hn' : n' = m := step_of_exec env h
      obtain ⟨-, -, rfl⟩ := SetPause.apply_eq_ok h
      rw [hn']

/-- Every step is governed. -/
theorem governed (n : Node) (ev : Event) : Governed env n ev (n.step env ev) := by
  have h := stepped env n ev
  refine {
    frozen := h.frozen
    pause := ?_
    unpause := ?_
    setPause := ?_
    roles := ?_
    peers := fun eid hne => (h.peers eid).resolve_left hne
    origin := h.origin }
  · intro hold hnew
    obtain ⟨tx, hev, hadmin | ⟨k, hvalid, hsigned⟩⟩ := h.flag (by rw [hold, hnew]; decide)
    · exact ⟨tx, hev, .inl hadmin⟩
    · rw [hnew] at hvalid
      exact ⟨tx, hev, .inr ⟨k, of_decide_eq_true hvalid, hsigned⟩⟩
  · intro hold hnew
    obtain ⟨tx, hev, hadmin | ⟨k, hvalid, hsigned⟩⟩ := h.flag (by rw [hold, hnew]; decide)
    · exact ⟨tx, hev, .inl hadmin⟩
    · rw [hnew] at hvalid
      exact ⟨tx, hev, .inr ⟨k, of_decide_eq_true hvalid, hsigned⟩⟩
  · rintro ⟨clock, endpoint, instruction⟩ acc params rfl rfl
    exact step_setPause n clock endpoint acc params
  · intro hne
    rcases h.store with ⟨hsame, -⟩ | hsigned | ⟨hsame, -⟩
    · exact absurd hsame hne
    · exact hsigned
    · exact absurd hsame hne

/-- In every run of a store, from whatever state, every step is governed: a
paused bridge is frozen, the flag and the configuration change under the
signatures of those who hold the roles then, and what `init_oft` fixed stays
as it was. -/
theorem governed_run (env : Externals) (n : Node) (events : List Event) :
    (∀ e ∈ Run.trace (step env) n events, Governed env e.1 e.2 (e.1.step env e.2) ∧
      e.1.store.origin = n.store.origin) ∧
    (Run.final (step env) n events).store.origin = n.store.origin := by
  refine ⟨fun e he => ⟨governed e.1 e.2, ?_⟩, origin_final n events⟩
  obtain ⟨before, after, -, hstate⟩ := Run.mem_trace (step env) he
  rw [hstate]
  exact origin_final n before

end Node

end CrossChain
