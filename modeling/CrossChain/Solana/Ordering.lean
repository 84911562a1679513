import CrossChain.Lib.Exchange
import CrossChain.Solana.Delivery

/-!
# CrossChain.Solana.Ordering

In what order deliveries land.

The transactions of a slot see one clock, and nobody but the slot's leader
says in what order they run.  Deliveries take from the same value locked, the
same escrow, the same limiters, and may pay the same recipients.  As far as
the store decides, that makes no difference: `Lands` is what a delivery looks
at and changes of the store's own, and such steps exchange.  What remains is
the token program, which may refuse a call in one order that it takes in
another.
-/

namespace CrossChain

/-! ## limiters by balance -/

/-- At clock reading `now` a limiter settles, gains `given` up to its
capacity, and loses `taken`. -/
structure RateLimiter.Moved (l l' : RateLimiter) (now : UInt64) (taken given : ℕ) : Prop where
  capacity : l'.capacity = l.capacity
  rate : l'.refillPerSecond = l.refillPerSecond
  time : l'.lastRefillTime = now
  tokens : l'.tokens.toNat + taken = min l.capacity.toNat
    (l.tokens.toNat + l.unsettled now * l.refillPerSecond.toNat + given)

namespace RateLimiter

theorem moved_tryConsume {l : RateLimiter} {new : Option RateLimiter} {clock : Clock} {a : UInt64}
    (h : onLimiter (some l) (·.tryConsume clock a) = .ok new) :
    ∃ now l', clock.currentTime = .ok now ∧ new = some l' ∧ l.Moved l' now a.toNat 0 := by
  obtain ⟨l', hop, rfl⟩ := onLimiter_some.mp h
  cases hclock : clock.currentTime with
  | error e => simp [tryConsume, refill, hclock] at hop
  | ok now =>
      have havailable := l.toNat_tokens_poll now
      rw [available] at havailable
      rw [tryConsume_eq hclock] at hop
      split at hop
      · next left hleft =>
        rw [UInt64.checkedSub_eq_some] at hleft
        obtain ⟨-, rfl⟩ := Prod.mk.inj hop
        exact ⟨now, _, rfl, rfl, rfl, rfl, rfl, by rw [hleft, havailable, Nat.add_zero]⟩
      · have herror := (Prod.mk.inj hop).1
        contradiction

theorem moved_refill {l : RateLimiter} {new : Option RateLimiter} {clock : Clock} {a : UInt64}
    (h : onLimiter (some l) (·.refill clock a) = .ok new) :
    ∃ now l', clock.currentTime = .ok now ∧ new = some l' ∧ l.Moved l' now 0 a.toNat := by
  obtain ⟨l', hop, rfl⟩ := onLimiter_some.mp h
  cases hclock : clock.currentTime with
  | error e => simp [refill, hclock] at hop
  | ok now =>
      rw [refill_eq hclock, Prod.mk.injEq] at hop
      have htokens := l.tokens_refillAt now a
      obtain ⟨-, rfl⟩ := hop
      exact ⟨now, _, rfl, rfl, rfl, rfl, rfl, htokens⟩

/-- Two moves at one time that only take, or only give, come to the same in
either order. -/
theorem moved_comm {l l₁ l₂ l₁' l₂' : RateLimiter} {now : UInt64} {a b a' b' : ℕ}
    (hkind : (a' = 0 ∧ b' = 0) ∨ (a = 0 ∧ b = 0))
    (h₁ : l.Moved l₁ now a a') (h₂ : l₁.Moved l₂ now b b')
    (h₁' : l.Moved l₁' now b b') (h₂' : l₁'.Moved l₂' now a a') : l₂ = l₂' := by
  have hfirst := h₁.tokens
  have hfirst' := h₁'.tokens
  have hlast := h₂.tokens
  have hlast' := h₂'.tokens
  rw [unsettled, h₁.time, Nat.sub_self, Nat.zero_mul, h₁.capacity] at hlast
  rw [unsettled, h₁'.time, Nat.sub_self, Nat.zero_mul, h₁'.capacity] at hlast'
  have htokens : l₂.tokens.toNat = l₂'.tokens.toNat := by
    rcases hkind with ⟨rfl, rfl⟩ | ⟨rfl, rfl⟩ <;> omega
  have hcapacity := h₂.capacity.trans h₁.capacity
  have hcapacity' := h₂'.capacity.trans h₁'.capacity
  have hrate := h₂.rate.trans h₁.rate
  have hrate' := h₂'.rate.trans h₁'.rate
  obtain ⟨capacity, tokens, rate, last⟩ := l₂
  rw [mk.injEq]
  exact ⟨hcapacity.trans hcapacity'.symm, UInt64.toNat_inj.mp htokens,
    hrate.trans hrate'.symm, h₂.time.trans h₂'.time.symm⟩

/-- A limiter, if one is set, ends the same in either order. -/
theorem onLimiter_comm {clock : Clock} (op : UInt64 → RateLimiter → Result Unit × RateLimiter)
    {taken given : UInt64 → ℕ}
    (hmoved : ∀ l new a, onLimiter (some l) (op a) = .ok new →
      ∃ now l', clock.currentTime = .ok now ∧ new = some l' ∧ l.Moved l' now (taken a) (given a))
    (hkind : (∀ a, given a = 0) ∨ ∀ a, taken a = 0) {a b : UInt64}
    {old l₁ l₂ l₁' l₂' : Option RateLimiter}
    (h₁ : onLimiter old (op a) = .ok l₁) (h₂ : onLimiter l₁ (op b) = .ok l₂)
    (h₁' : onLimiter old (op b) = .ok l₁') (h₂' : onLimiter l₁' (op a) = .ok l₂') : l₂ = l₂' := by
  cases old with
  | none =>
      rw [onLimiter_none.mp h₁] at h₂
      rw [onLimiter_none.mp h₁'] at h₂'
      rw [onLimiter_none.mp h₂, onLimiter_none.mp h₂']
  | some l =>
      obtain ⟨now, m₁, hnow, rfl, hm₁⟩ := hmoved _ _ _ h₁
      obtain ⟨now₂, m₂, hnow₂, rfl, hm₂⟩ := hmoved _ _ _ h₂
      obtain ⟨now₁', m₁', hnow₁', rfl, hm₁'⟩ := hmoved _ _ _ h₁'
      obtain ⟨now₂', m₂', hnow₂', rfl, hm₂'⟩ := hmoved _ _ _ h₂'
      obtain rfl := Except.ok.inj (hnow.symm.trans hnow₂)
      obtain rfl := Except.ok.inj (hnow.symm.trans hnow₁')
      obtain rfl := Except.ok.inj (hnow.symm.trans hnow₂')
      have hkind' : (given a = 0 ∧ given b = 0) ∨ (taken a = 0 ∧ taken b = 0) :=
        hkind.imp (fun h => ⟨h a, h b⟩) (fun h => ⟨h a, h b⟩)
      rw [moved_comm hkind' hm₁ hm₂ hm₁' hm₂']

/-- What is available after another amount was taken was available before,
and leaves room for that amount. -/
theorem Moved.available {l l' : RateLimiter} {now : UInt64} {a : ℕ} (h : l.Moved l' now a 0) :
    l'.available now + a = l.available now := by
  have htokens := h.tokens
  rw [RateLimiter.available, RateLimiter.available, unsettled, h.time, Nat.sub_self, Nat.zero_mul,
    h.capacity]
  omega

end RateLimiter

namespace PeerConfig

/-- What a delivery of `a` does to a peer: the limiter inwards is charged,
the one outwards refilled. -/
structure Charged (clock : Clock) (p : PeerConfig) (a : UInt64) (p' : PeerConfig) : Prop where
  inbound : onLimiter p.inboundRateLimiter (·.tryConsume clock a) = .ok p'.inboundRateLimiter
  outbound : onLimiter p.outboundRateLimiter (·.refill clock a) = .ok p'.outboundRateLimiter
  rest : p' = { p with
    outboundRateLimiter := p'.outboundRateLimiter, inboundRateLimiter := p'.inboundRateLimiter }

theorem Charged.peerAddress {clock : Clock} {p p' : PeerConfig} {a : UInt64}
    (h : p.Charged clock a p') : p'.peerAddress = p.peerAddress := by
  rw [h.rest]

theorem Charged.unique {clock : Clock} {p p' p'' : PeerConfig} {a : UInt64}
    (h : p.Charged clock a p') (h' : p.Charged clock a p'') : p' = p'' := by
  have hinbound := Except.ok.inj (h.inbound.symm.trans h'.inbound)
  have houtbound := Except.ok.inj (h.outbound.symm.trans h'.outbound)
  rw [h.rest, h'.rest, hinbound, houtbound]

theorem charged_comm {clock : Clock} {p p₁ p₂ p₁' p₂' : PeerConfig} {a b : UInt64}
    (h₁ : p.Charged clock a p₁) (h₂ : p₁.Charged clock b p₂)
    (h₁' : p.Charged clock b p₁') (h₂' : p₁'.Charged clock a p₂') : p₂ = p₂' := by
  have hinbound : p₂.inboundRateLimiter = p₂'.inboundRateLimiter :=
    RateLimiter.onLimiter_comm (fun a l => l.tryConsume clock a)
      (fun l new a h => RateLimiter.moved_tryConsume h) (.inl fun _ => rfl)
      h₁.inbound h₂.inbound h₁'.inbound h₂'.inbound
  have houtbound : p₂.outboundRateLimiter = p₂'.outboundRateLimiter :=
    RateLimiter.onLimiter_comm (fun a l => l.refill clock a)
      (fun l new a h => RateLimiter.moved_refill h) (.inr fun _ => rfl)
      h₁.outbound h₂.outbound h₁'.outbound h₂'.outbound
  rw [h₂.rest, h₁.rest, h₂'.rest, h₁'.rest, hinbound, houtbound]

/-- What a delivery asks of the limiters. -/
theorem charged_iff {clock : Clock} {p : PeerConfig} {a : UInt64} :
    (∃ p', p.Charged clock a p') ↔
      (∀ l, p.inboundRateLimiter = some l →
        ∃ now, clock.currentTime = .ok now ∧ a.toNat ≤ l.available now) ∧
      (p.outboundRateLimiter.isSome → ∃ now, clock.currentTime = .ok now) := by
  have hrefill : (onLimiter p.outboundRateLimiter (·.refill clock a)).isOk ↔ _ :=
    LzReceive.isOk_onLimiter_refill
  rw [← RateLimiter.isOk_onLimiter_tryConsume, ← hrefill]
  constructor
  · rintro ⟨p', h⟩
    exact ⟨Except.isOk_iff.mpr ⟨_, h.inbound⟩, Except.isOk_iff.mpr ⟨_, h.outbound⟩⟩
  · rintro ⟨hinbound, houtbound⟩
    obtain ⟨inbound, hinbound⟩ := Except.isOk_iff.mp hinbound
    obtain ⟨outbound, houtbound⟩ := Except.isOk_iff.mp houtbound
    exact ⟨{ p with outboundRateLimiter := outbound, inboundRateLimiter := inbound },
      hinbound, houtbound, rfl⟩

/-- After `a` is charged `b` can be charged exactly when both together were
available. -/
theorem admitted_of_charged {clock : Clock} {p p' : PeerConfig} {a b : UInt64}
    (h : p.Charged clock a p') : (∃ p'', p'.Charged clock b p'') ↔
      ∀ l, p.inboundRateLimiter = some l →
        ∃ now, clock.currentTime = .ok now ∧ a.toNat + b.toNat ≤ l.available now := by
  rw [charged_iff]
  have hinbound := h.inbound
  have hrefilled := (charged_iff.mp ⟨p', h⟩).2
  have hsome := isSome_onLimiter h.outbound
  cases hl : p.inboundRateLimiter with
  | none =>
      rw [hl, onLimiter_none] at hinbound
      rw [hinbound, hsome]
      simp only [reduceCtorEq, false_implies, implies_true, true_and, iff_true]
      exact hrefilled
  | some l =>
      rw [hl] at hinbound
      obtain ⟨now, l', hnow, hl', hmoved⟩ := RateLimiter.moved_tryConsume hinbound
      have havailable := hmoved.available
      rw [hl', hsome, hnow]
      simp only [Option.some.injEq, forall_eq', Except.ok.injEq, exists_eq_left', exists_eq',
        implies_true, and_true]
      omega

/-- Charges of one clock reading exchange. -/
theorem charged_swap {clock : Clock} {p p₁ p₂ : PeerConfig} {a b : UInt64}
    (h₁ : p.Charged clock a p₁) (h₂ : p₁.Charged clock b p₂) :
    ∃ p₁', p.Charged clock b p₁' ∧ p₁'.Charged clock a p₂ := by
  have hboth := (admitted_of_charged h₁).mp ⟨p₂, h₂⟩
  obtain ⟨p₁', h₁'⟩ : ∃ p₁', p.Charged clock b p₁' := by
    refine charged_iff.mpr ⟨fun l hl => ?_, (charged_iff.mp ⟨p₁, h₁⟩).2⟩
    obtain ⟨now, hnow, hle⟩ := hboth l hl
    exact ⟨now, hnow, by omega⟩
  obtain ⟨p₂', h₂'⟩ : ∃ p₂', p₁'.Charged clock a p₂' := by
    refine (admitted_of_charged h₁').mpr fun l hl => ?_
    obtain ⟨now, hnow, hle⟩ := hboth l hl
    exact ⟨now, hnow, by omega⟩
  rw [charged_comm h₁ h₂ h₁' h₂']
  exact ⟨p₁', h₁', h₂'⟩

end PeerConfig

/-! ## what a delivery changes -/

namespace Node.SameSettings

variable {n n' : Node}

theorem symm (h : n.SameSettings n') : n'.SameSettings n :=
  ⟨h.key.symm, h.origin.symm, by rw [h.mint]⟩

theorem oftType (h : n.SameSettings n') : n'.store.oftType = n.store.oftType :=
  congrArg (·.1) h.origin

theorem rate (h : n.SameSettings n') : n'.store.ld2sdRate = n.store.ld2sdRate :=
  congrArg (·.2.1) h.origin

theorem tokenMint (h : n.SameSettings n') : n'.store.tokenMint = n.store.tokenMint :=
  congrArg (·.2.2.1) h.origin

theorem tokenEscrow (h : n.SameSettings n') : n'.store.tokenEscrow = n.store.tokenEscrow :=
  congrArg (·.2.2.2.1) h.origin

theorem endpointProgram (h : n.SameSettings n') :
    n'.store.endpointProgram = n.store.endpointProgram := congrArg (·.2.2.2.2.1) h.origin

theorem net (h : n.SameSettings n') (epoch : UInt64) (a : ℕ) :
    n'.tokens.mint.net epoch a = n.tokens.mint.net epoch a := by
  rw [h.mint]
  rfl

theorem destOf (h : n.SameSettings n') (env : Externals) (k : Pubkey) :
    LzReceive.destOf env n' k = LzReceive.destOf env n k := by
  rw [LzReceive.destOf, LzReceive.destOf, h.tokenMint, h.mint]

theorem arriving (h : n.SameSettings n') (epoch : UInt64) (a : ℕ) :
    LzReceive.arriving n' epoch a = LzReceive.arriving n epoch a := by
  rw [LzReceive.arriving, LzReceive.arriving, h.oftType, h.net]

end Node.SameSettings

namespace LzReceive

/-- What a message pays: `amountLd`, from `sender` at `srcEid`, into account
`dest` of `toAddress`.  If there is none, `payer` opens it. -/
structure Payment where
  srcEid : UInt32
  sender : FixedBytes 32
  payer : Pubkey
  dest : Pubkey
  toAddress : Pubkey
  amountLd : UInt64

/-- What a payment adds to the balance of `k`. -/
def Payment.credit (p : Payment) (n : Node) (epoch : UInt64) (k : Pubkey) : ℤ :=
  match n.store.oftType with
  | .adapter => Tokens.flow n.tokens.mint epoch n.store.tokenEscrow p.dest p.amountLd.toNat k
  | .native => if k = p.dest then p.amountLd.toNat else 0

/-- What a payment adds to the supply. -/
def Payment.minted (p : Payment) (n : Node) : ℤ :=
  if n.store.oftType = .adapter then 0 else p.amountLd.toNat

theorem Payment.credit_congr {n n' : Node} (h : n.SameSettings n') (p : Payment) (epoch : UInt64)
    (k : Pubkey) : p.credit n' epoch k = p.credit n epoch k := by
  rw [credit, credit, h.oftType, h.tokenEscrow]
  simp only [Tokens.flow, h.net]

theorem Payment.minted_congr {n n' : Node} (h : n.SameSettings n') (p : Payment) :
    p.minted n' = p.minted n := by
  rw [minted, minted, h.oftType]

/-- What the payments of a slot share: the value locked, the peers with their
limiters, and whose hands the token accounts are in. -/
structure Desk where
  tvlLd : UInt64
  peers : UInt32 → Option PeerConfig
  hands : Pubkey → Option Pubkey

/-- The store's own part in a payment. -/
structure Lands (oftType : OFTType) (clock : Clock) (d : Desk) (p : Payment) (d' : Desk) :
    Prop where
  tvl : d'.tvlLd.toNat + (if oftType = .adapter then p.amountLd.toNat else 0) = d.tvlLd.toNat
  owner : ∀ k ∈ d.hands p.dest, k = p.toAddress
  hands : d'.hands = Function.update d.hands p.dest (some p.toAddress)
  peers : ∃ peer peer', d.peers p.srcEid = some peer ∧ peer.peerAddress = p.sender ∧
    peer.Charged clock p.amountLd peer' ∧ d'.peers = Function.update d.peers p.srcEid (some peer')

section desk

variable {oftType : OFTType} {clock : Clock} {d d₁ d₂ : Desk} {a b : Payment}

theorem lands_unique (h₁ : Lands oftType clock d a d₁) (h₂ : Lands oftType clock d a d₂) :
    d₁ = d₂ := by
  have htvl : d₁.tvlLd = d₂.tvlLd := by
    rw [← UInt64.toNat_inj]
    exact Nat.add_right_cancel (h₁.tvl.trans h₂.tvl.symm)
  have hpeers : d₁.peers = d₂.peers := by
    obtain ⟨p₁, p₁', hfound₁, -, hcharged₁, hpeers₁⟩ := h₁.peers
    obtain ⟨p₂, p₂', hfound₂, -, hcharged₂, hpeers₂⟩ := h₂.peers
    obtain rfl := Option.some.inj (hfound₁.symm.trans hfound₂)
    rw [hpeers₁, hpeers₂, hcharged₁.unique hcharged₂]
  have hhands := h₁.hands.trans h₂.hands.symm
  obtain ⟨tvlLd, peers, hands⟩ := d₁
  rw [Desk.mk.injEq]
  exact ⟨htvl, hpeers, hhands⟩

/-- Two payments from one peer, or from two, charge them in either order. -/
theorem peers_swap (h₁ : Lands oftType clock d a d₁) (h₂ : Lands oftType clock d₁ b d₂) :
    ∃ q q', d.peers b.srcEid = some q ∧ q.peerAddress = b.sender ∧
      q.Charged clock b.amountLd q' ∧
      ∃ r r', Function.update d.peers b.srcEid (some q') a.srcEid = some r ∧
        r.peerAddress = a.sender ∧ r.Charged clock a.amountLd r' ∧ d₂.peers =
          Function.update (Function.update d.peers b.srcEid (some q')) a.srcEid (some r') := by
  obtain ⟨p₁, p₁', hfound₁, haddress₁, hcharged₁, hpeers₁⟩ := h₁.peers
  obtain ⟨p₂, p₂', hfound₂, haddress₂, hcharged₂, hpeers₂⟩ := h₂.peers
  rw [hpeers₁] at hfound₂ hpeers₂
  by_cases heid : b.srcEid = a.srcEid
  · rw [heid, Function.update_self, Option.some.injEq] at hfound₂
    subst hfound₂
    obtain ⟨q', hfirst, hlast⟩ := PeerConfig.charged_swap hcharged₁ hcharged₂
    rw [heid] at hpeers₂ ⊢
    refine ⟨p₁, q', hfound₁, hcharged₁.peerAddress.symm.trans haddress₂, hfirst, q', p₂',
      Function.update_self .., hfirst.peerAddress.trans haddress₁, hlast, ?_⟩
    rw [hpeers₂, Function.update_idem, Function.update_idem]
  · rw [Function.update_of_ne heid] at hfound₂
    refine ⟨p₂, p₂', hfound₂, haddress₂, hcharged₂, p₁, p₁', ?_, haddress₁, hcharged₁, ?_⟩
    · rw [Function.update_of_ne (Ne.symm heid), hfound₁]
    · rw [hpeers₂, Function.update_comm heid]

/-- Two payments into one account are to one recipient. -/
theorem hands_swap (h₁ : Lands oftType clock d a d₁) (h₂ : Lands oftType clock d₁ b d₂) :
    (∀ k ∈ d.hands b.dest, k = b.toAddress) ∧
      (∀ k ∈ Function.update d.hands b.dest (some b.toAddress) a.dest, k = a.toAddress) ∧
      d₂.hands = Function.update (Function.update d.hands b.dest (some b.toAddress)) a.dest
        (some a.toAddress) := by
  have howner := h₂.owner
  have hhands := h₂.hands
  rw [h₁.hands] at howner hhands
  by_cases hdest : b.dest = a.dest
  · rw [hdest, Function.update_self] at howner
    have hsame : a.toAddress = b.toAddress := howner _ rfl
    rw [hdest, ← hsame] at hhands ⊢
    refine ⟨h₁.owner, fun k hk => ?_, by rw [hhands]⟩
    rw [Function.update_self] at hk
    exact (Option.some.inj hk).symm
  · rw [Function.update_of_ne hdest] at howner
    refine ⟨howner, fun k hk => ?_, by rw [hhands, Function.update_comm hdest]⟩
    rw [Function.update_of_ne (Ne.symm hdest)] at hk
    exact h₁.owner k hk

theorem lands_swap (h₁ : Lands oftType clock d a d₁) (h₂ : Lands oftType clock d₁ b d₂) :
    ∃ d₁', Lands oftType clock d b d₁' ∧ Lands oftType clock d₁' a d₂ := by
  obtain ⟨q, q', hfound, haddress, hcharged, r, r', hfound', haddress', hcharged', hpeers⟩ :=
    peers_swap h₁ h₂
  obtain ⟨howner, howner', hhands⟩ := hands_swap h₁ h₂
  have htvl₁ := h₁.tvl
  have htvl₂ := h₂.tvl
  have hlt := d.tvlLd.toNat_lt_two_pow
  obtain ⟨tvlLd, htvl⟩ := UInt64.exists_toNat_eq
    (n := d.tvlLd.toNat - if oftType = .adapter then b.amountLd.toNat else 0) (by omega)
  refine ⟨⟨tvlLd, Function.update d.peers b.srcEid (some q'),
    Function.update d.hands b.dest (some b.toAddress)⟩, ?_, ?_⟩
  · exact ⟨by simp only; omega, howner, rfl, q, q', hfound, haddress, hcharged, rfl⟩
  · exact ⟨by simp only; omega, howner', hhands, r, r', hfound', haddress', hcharged', hpeers⟩

end desk

end LzReceive

/-- What the payments of a slot share. -/
def Node.desk (n : Node) : LzReceive.Desk := ⟨n.store.tvlLd, n.peers, n.tokens.hands⟩

namespace LzReceive

/-- All that a payment changes: what the payments of a slot share, the
supply, and balances. -/
structure Landed (clock : Clock) (n : Node) (p : Payment) (n' : Node) : Prop where
  settings : n.SameSettings n'
  store : n'.store = { n.store with tvlLd := n'.store.tvlLd }
  desk : Lands n.store.oftType clock n.desk p n'.desk
  supply : (n'.tokens.mint.supply.toNat : ℤ) = n.tokens.mint.supply.toNat + p.minted n
  balance : ∀ k, (n'.tokens.balance k : ℤ) = n.tokens.balance k + p.credit n clock.epoch k

/-- A delivery leaves `token_dest` in the recipient's hands, where it was if
it existed. -/
theorem hands_deliver {env : Externals} {clock : Clock} {endpoint : Endpoint} {n : Node}
    {acc : Accounts} {remaining : List LzAccount} {params : LzReceiveParams} {out : Outcome}
    (h : deliver env clock endpoint n acc remaining params = .ok out) :
    (∀ k ∈ n.tokens.hands acc.tokenDest.pubkey, k = acc.toAddress.pubkey) ∧
      out.node.tokens.hands =
        Function.update n.tokens.hands acc.tokenDest.pubkey (some acc.toAddress.pubkey) := by
  simp only [deliver, Except.bind_eq_ok, Except.pure_eq_ok] at h
  obtain ⟨⟨peer, opened⟩, htry, -, -, -, -, -, -, -, -, amountLd, -, -, -, -, -,
    ⟨tvlLd, tokens, received⟩, hrelease, rfl⟩ := h
  have hopened := destOpened (tryAccounts_open htry)
  refine ⟨hopened.owner, funext fun k => ?_⟩
  rw [Function.update_apply, ← hopened.hands]
  exact (kept_releaseTokens hrelease).hands k

/-- A delivery is a payment of what its message says. -/
theorem landed {env : Externals} {clock : Clock} {endpoint : Endpoint} {n : Node}
    {acc : Accounts} {remaining : List LzAccount} {params : LzReceiveParams} {out : Outcome}
    (h : deliver env clock endpoint n acc remaining params = .ok out) :
    ∃ amountSd amountLd, MsgCodec.amountSd params.message = some amountSd ∧
      amountSd.toNat * n.store.ld2sdRate.toNat = amountLd.toNat ∧
      Landed clock n ⟨params.srcEid, params.sender, acc.payer.pubkey, acc.tokenDest.pubkey,
        acc.toAddress.pubkey, amountLd⟩ out.node := by
  obtain ⟨peer, outbound, inbound, opened, amountSd, amountLd, hd⟩ := delivered h
  obtain ⟨howner, hhands⟩ := hands_deliver h
  refine ⟨amountSd, amountLd, hd.decoded, hd.scaled, ?_⟩
  have hstore : out.node.store = { n.store with tvlLd := out.node.store.tvlLd } := by
    rw [hd.node]
    rfl
  have hadapter := hd.released.adapter
  have hnative := hd.released.native
  rw [hd.escrow] at hadapter
  exact {
    settings := ⟨by rw [hd.node]; rfl, by rw [hstore]; rfl, (keeps_deliver h).mint⟩
    store := hstore
    desk := {
      tvl := by
        cases htype : n.store.oftType with
        | adapter =>
            rw [if_pos rfl]
            exact (hadapter htype).1
        | native =>
            rw [if_neg (by decide), Nat.add_zero]
            exact congrArg UInt64.toNat (hnative htype).1
      owner := howner
      hands := hhands
      peers := ⟨peer, _, hd.found, hd.sender, ⟨hd.consumed, hd.refilled, rfl⟩, by
        rw [Node.desk, hd.node]
        rfl⟩ }
    supply := by
      rw [Payment.minted]
      cases htype : n.store.oftType with
      | adapter => rw [(hadapter htype).2.1.mint, hd.opens.mint, if_pos rfl, add_zero]
      | native =>
          rw [(hnative htype).2.1.supply, hd.opens.mint, if_neg (by decide), Nat.cast_add]
    balance := by
      intro k
      rw [Payment.credit]
      cases htype : n.store.oftType with
      | adapter => rw [(hadapter htype).2.1.balance, hd.opens.balance, hd.opens.mint]
      | native => rw [(hnative htype).2.1.balance, hd.opens.balance] }

/-! ## what carries over in a slot -/

section

variable {env : Externals} {clock : Clock} {endpoint : Endpoint} {n m : Node}
  {params : LzReceiveParams} {peer : PeerConfig} {toAddress : Pubkey} {amountSd amountLd : UInt64}

/-- Acceptance carries over between states of the same settings, when the
peer, the owner of the recipient's account and the value locked allow for
it. -/
theorem Accepts.congr {peer' : PeerConfig}
    (h : Accepts env clock endpoint n params peer toAddress amountSd amountLd)
    (hs : n.SameSettings m) (hpaused : m.store.paused = n.store.paused)
    (hfound : m.peers params.srcEid = some peer') (haddress : peer'.peerAddress = peer.peerAddress)
    (hcharged : ∃ p, peer'.Charged clock amountLd p)
    (howner : ∀ k ∈ m.tokens.hands (destOf env n toAddress), k = toAddress)
    (htvl : n.store.oftType = .adapter → amountLd.toNat ≤ m.store.tvlLd.toNat) :
    Accepts env clock endpoint m params peer' toAddress amountSd amountLd where
  running := hpaused.trans h.running
  found := hfound
  sender := haddress.trans h.sender
  recipient := h.recipient
  owner := by
    rw [hs.destOf]
    exact howner
  cleared := by
    rw [hs.key, hs.endpointProgram]
    exact h.cleared
  decoded := h.decoded
  scaled := by
    rw [hs.rate]
    exact h.scaled
  admitted := (PeerConfig.charged_iff.mp hcharged).1
  refilled := (PeerConfig.charged_iff.mp hcharged).2
  releasable := by
    have hreleasable := h.releasable
    unfold Releasable at hreleasable ⊢
    rw [hs.oftType, hs.mint]
    cases htype : n.store.oftType with
    | adapter => exact htvl htype
    | native =>
        rw [htype] at hreleasable
        exact hreleasable
  composed := by
    intro message hmessage
    rw [Composes, hs.key, hs.endpointProgram, hs.arriving]
    exact h.composed message hmessage

/-- A message that was accepted is where its payment lands. -/
theorem Accepts.of_lands {payer : Pubkey} {d : Desk}
    (h : Accepts env clock endpoint n params peer toAddress amountSd amountLd)
    (hs : n.SameSettings m) (hpaused : m.store.paused = n.store.paused)
    (hlands : Lands n.store.oftType clock m.desk ⟨params.srcEid, params.sender, payer,
      destOf env n toAddress, toAddress, amountLd⟩ d) :
    ∃ peer', Accepts env clock endpoint m params peer' toAddress amountSd amountLd := by
  obtain ⟨peer', charged, hfound, haddress, hcharged, -⟩ := hlands.peers
  refine ⟨peer', h.congr hs hpaused hfound (haddress.trans h.sender.symm) ⟨charged, hcharged⟩
    hlands.owner fun htype => ?_⟩
  have htvl := hlands.tvl
  rw [if_pos htype] at htvl
  exact Nat.le_of_add_left_le htvl.le

end

end LzReceive

namespace Node

variable {env : Externals} {clock : Clock} {n m m' : Node} {tx : Tx}

/-- What a delivery pays, if its message can be read. -/
def payment (env : Externals) (n : Node) : Tx → Option LzReceive.Payment
  | ⟨_, _, .lzReceive (payer :: _) params⟩ => do
      let toAddress ← MsgCodec.sendTo params.message
      let amountSd ← MsgCodec.amountSd params.message
      let amountLd ← amountSd.checkedMul n.store.ld2sdRate
      pure ⟨params.srcEid, params.sender, payer.pubkey, LzReceive.destOf env n toAddress,
        toAddress, amountLd⟩
  | _ => none

theorem payment_congr (h : n.SameSettings m) (tx : Tx) : payment env m tx = payment env n tx := by
  unfold payment
  split
  · rw [h.rate]
    simp only [h.destOf]
  · rfl

/-- The token program takes the calls of a delivery. -/
def CallsTaken (env : Externals) (n : Node) (tx : Tx) : Prop :=
  ∀ p, payment env n tx = some p →
    LzReceive.Pays env n tx.clock.epoch p.payer p.toAddress p.amountLd

/-- An accepted message pays what it says. -/
theorem payment_of_accepts {endpoint : Endpoint} {params : LzReceiveParams} {peer : PeerConfig}
    {toAddress : Pubkey} {amountSd amountLd : UInt64}
    (h : LzReceive.Accepts env clock endpoint n params peer toAddress amountSd amountLd)
    (payer : LzAccount) (listed : List LzAccount) :
    payment env n ⟨clock, endpoint, .lzReceive (payer :: listed) params⟩ =
      some ⟨params.srcEid, params.sender, payer.pubkey, LzReceive.destOf env n toAddress, toAddress,
        amountLd⟩ := by
  simp only [payment, h.recipient, h.decoded, UInt64.checkedMul_eq_some.mpr h.scaled, bind,
    Option.bind_some, pure]

/-- Once a message is accepted, its delivery is up to the token program. -/
theorem callsTaken_iff {endpoint : Endpoint} {params : LzReceiveParams} {peer : PeerConfig}
    {toAddress : Pubkey} {amountSd amountLd : UInt64}
    (h : LzReceive.Accepts env clock endpoint n params peer toAddress amountSd amountLd)
    (payer : LzAccount) (listed : List LzAccount) :
    (∃ peer toAddress amountSd amountLd,
      LzReceive.Accepts env clock endpoint n params peer toAddress amountSd amountLd ∧
        LzReceive.Pays env n clock.epoch payer.pubkey toAddress amountLd) ↔
      CallsTaken env n ⟨clock, endpoint, .lzReceive (payer :: listed) params⟩ := by
  constructor
  · rintro ⟨peer', toAddress', amountSd', amountLd', h', hpays⟩ p hp
    obtain rfl := Option.some.inj ((payment_of_accepts h' payer listed).symm.trans hp)
    exact hpays
  · intro htaken
    exact ⟨peer, toAddress, amountSd, amountLd, h, htaken _ (payment_of_accepts h payer listed)⟩

/-- A delivery at the slot's clock, on the accounts that `lz_receive_types`
lists for store `n`. -/
inductive Delivers (env : Externals) (clock : Clock) (n : Node) : Tx → Prop
  | listed {endpoint : Endpoint} {params : LzReceiveParams} {payer : LzAccount}
      {listed : List LzAccount} {asked : Clock} {acc : LzReceiveTypes.Accounts}
      (payer_ok : payer.isSigner ∧ payer.isWritable) (epoch : asked.epoch = clock.epoch)
      (answer : LzReceiveTypes.apply env asked n acc params = .ok listed) :
      Delivers env clock n ⟨clock, endpoint, .lzReceive (payer :: listed.tail) params⟩

/-- A state that deliveries of the slot lead to. -/
structure InSlot (env : Externals) (n m : Node) : Prop where
  settings : n.SameSettings m
  store : m.store = { n.store with tvlLd := m.store.tvlLd }
  genuine : m.Genuine env

theorem InSlot.paused (h : InSlot env n m) : m.store.paused = n.store.paused := by rw [h.store]

/-- A delivery that succeeds pays what its message says. -/
theorem Delivers.landed (h : Delivers env clock n tx) (hm : InSlot env n m)
    (hrun : m.exec env tx = .ok m') :
    ∃ p, payment env n tx = some p ∧ LzReceive.Landed clock m p m' := by
  obtain @⟨endpoint, params, payer, listed, asked, acc, hpayer, hepoch, hasked⟩ := h
  have hanswer : LzReceiveTypes.apply env clock m acc params = .ok listed := by
    rw [LzReceiveTypes.apply_congr hm.settings hepoch.symm, hasked]
  obtain ⟨recv, remaining, hlist, rfl, hl⟩ := LzReceiveTypes.listed_of_apply hpayer hanswer
  obtain ⟨out, happly, hout⟩ := Except.bind_eq_ok.mp hrun
  obtain ⟨recv', remaining', hlist', hdeliver⟩ := LzReceive.apply_eq_ok happly
  obtain ⟨rfl, rfl⟩ := Prod.mk.inj (Option.some.inj (hlist.symm.trans hlist'))
  obtain ⟨amountSd, amountLd, hdecoded, hscaled, hlanded⟩ := LzReceive.landed hdeliver
  refine ⟨_, ?_, Except.pure_eq_ok.mp hout ▸ hlanded⟩
  rw [hm.settings.rate] at hscaled
  simp only [payment, hl.addressed.toAddress, hdecoded, UInt64.checkedMul_eq_some.mpr hscaled,
    hl.tokenDest, hm.settings.destOf, bind, Option.bind_some, pure]

/-- A delivery succeeds when its message is accepted and the token program
pays it. -/
theorem isOk_exec_listed {endpoint : Endpoint} {params : LzReceiveParams} {payer : LzAccount}
    {listed : List LzAccount} {asked : Clock} {acc : LzReceiveTypes.Accounts}
    (hpayer : payer.isSigner ∧ payer.isWritable) (hepoch : asked.epoch = clock.epoch)
    (hasked : LzReceiveTypes.apply env asked n acc params = .ok listed) (hs : n.SameSettings m)
    (hg : m.Genuine env) :
    (m.exec env ⟨clock, endpoint, .lzReceive (payer :: listed.tail) params⟩).isOk ↔
      ∃ peer toAddress amountSd amountLd,
        LzReceive.Accepts env clock endpoint m params peer toAddress amountSd amountLd ∧
          LzReceive.Pays env m clock.epoch payer.pubkey toAddress amountLd := by
  have hanswer : LzReceiveTypes.apply env clock m acc params = .ok listed := by
    rw [LzReceiveTypes.apply_congr hs hepoch.symm, hasked]
  obtain ⟨recv, remaining, hlist, rfl, hl⟩ := LzReceiveTypes.listed_of_apply hpayer hanswer
  rw [← LzReceive.isOk_apply hlist hg hl, exec, Except.isOk_bind, Except.isOk_iff]
  exact exists_congr fun _ => and_iff_left rfl

/-- A delivery that would succeed somewhere in the slot succeeds where its
payment lands, if the token program takes its calls. -/
theorem Delivers.isOk_iff (h : Delivers env clock n tx) {m₀ : Node} (hm₀ : InSlot env n m₀)
    (hok : (m₀.exec env tx).isOk) (hm : InSlot env n m) {p : LzReceive.Payment}
    {d : LzReceive.Desk} (hp : payment env n tx = some p)
    (hlands : LzReceive.Lands n.store.oftType clock m.desk p d) :
    (m.exec env tx).isOk ↔ CallsTaken env m tx := by
  obtain @⟨endpoint, params, payer, listed, asked, acc, hpayer, hepoch, hasked⟩ := h
  obtain ⟨peer, toAddress, amountSd, amountLd, haccepts, -⟩ :=
    (isOk_exec_listed hpayer hepoch hasked hm₀.settings hm₀.genuine).mp hok
  -- the payment is the one that was accepted
  have hsame := payment_of_accepts haccepts payer listed.tail
  rw [payment_congr hm₀.settings, hp, Option.some.injEq] at hsame
  rw [hsame, ← hm₀.settings.oftType] at hlands
  obtain ⟨peer', haccepts'⟩ := haccepts.of_lands (hm₀.settings.symm.trans hm.settings)
    (hm.paused.trans hm₀.paused.symm) hlands
  exact (isOk_exec_listed hpayer hepoch hasked hm.settings hm.genuine).trans
    (callsTaken_iff haccepts' payer listed.tail)

theorem InSlot.landed {p : LzReceive.Payment} (hm : InSlot env n m)
    (h : LzReceive.Landed clock m p m') (hrun : m.exec env tx = .ok m') : InSlot env n m' where
  settings := hm.settings.trans h.settings
  store := by rw [h.store, hm.store]
  genuine := step_of_exec env hrun ▸ hm.genuine.step (.tx tx)

/-- The store's own part in a delivery of the slot. -/
def DeskStep (env : Externals) (clock : Clock) (n : Node) (d : LzReceive.Desk) (tx : Tx)
    (d' : LzReceive.Desk) : Prop :=
  ∃ p, payment env n tx = some p ∧ LzReceive.Lands n.store.oftType clock d p d'

/-- What a delivery of the slot adds to a balance. -/
def creditOf (env : Externals) (clock : Clock) (n : Node) (k : Pubkey) (tx : Tx) : ℤ :=
  ((payment env n tx).map fun p => p.credit n clock.epoch k).getD 0

/-- What a delivery of the slot adds to the supply. -/
def mintedOf (env : Externals) (n : Node) (tx : Tx) : ℤ :=
  ((payment env n tx).map fun p => p.minted n).getD 0

/-- What a delivery of the slot does. -/
theorem Delivers.step (h : Delivers env clock n tx) (hm : InSlot env n m)
    (hrun : m.exec env tx = .ok m') :
    InSlot env n m' ∧ DeskStep env clock n m.desk tx m'.desk ∧
      (m'.tokens.mint.supply.toNat : ℤ) = m.tokens.mint.supply.toNat + mintedOf env n tx ∧
      ∀ k, (m'.tokens.balance k : ℤ) = m.tokens.balance k + creditOf env clock n k tx := by
  obtain ⟨p, hp, hlanded⟩ := h.landed hm hrun
  refine ⟨hm.landed hlanded hrun, ⟨p, hp, hm.settings.oftType ▸ hlanded.desk⟩, ?_, fun k => ?_⟩
  · rw [mintedOf, hp, hlanded.supply, p.minted_congr hm.settings]
    rfl
  · rw [creditOf, hp, hlanded.balance, p.credit_congr hm.settings]
    rfl

/-- What deliveries of the slot lead to is the value locked, the peers, whose
hands accounts are in, the supply and the balances; the rest is as it was. -/
theorem InSlot.eq {m₁ m₂ : Node} (h₁ : InSlot env n m₁) (h₂ : InSlot env n m₂)
    (hdesk : m₁.desk = m₂.desk)
    (hsupply : m₁.tokens.mint.supply = m₂.tokens.mint.supply)
    (hbalance : ∀ k, m₁.tokens.balance k = m₂.tokens.balance k) :
    m₂ = { m₁ with tokens := { m₁.tokens with rest := m₂.tokens.rest } } := by
  obtain ⟨htvl, hpeers, hhands⟩ := LzReceive.Desk.mk.inj hdesk
  have hkey : m₂.key = m₁.key := h₂.settings.key.trans h₁.settings.key.symm
  have hstore : m₂.store = m₁.store := by rw [h₂.store, h₁.store, htvl]
  have hmint : m₂.tokens.mint = m₁.tokens.mint := by
    rw [h₂.settings.mint, h₁.settings.mint, hsupply]
  have haccounts : m₂.tokens.accounts = m₁.tokens.accounts :=
    (Tokens.accounts_of_hands (fun k => congrFun hhands k) hbalance).symm
  obtain ⟨key, store, peers, mint, accounts, rest⟩ := m₂
  rw [mk.injEq, Tokens.mk.injEq]
  exact ⟨hkey, hstore, hpeers.symm, hmint, haccounts, rfl⟩

/-- Order of delivery: of deliveries submitted for one slot, in any reachable
state, that all go through in one order, any other order goes through exactly
when the token program takes each call as it comes.  It leaves the same
store, peers, mint and token accounts. -/
theorem deliveries_commute (env : Externals) (n₀ : Node) (hinit : InitOFT.Created env n₀)
    (events : List Event) (clock : Clock) (batch batch' : List Tx) (hperm : batch.Perm batch') :
    let n := Run.final (step env) n₀ events
    (∀ tx ∈ batch, Delivers env clock n tx) →
    ∀ n₁, batch.foldlM (exec env) n = .ok n₁ →
      ((batch'.foldlM (exec env) n).isOk ↔ Exchange.Along (exec env) (CallsTaken env) n batch') ∧
      ∀ n₂, batch'.foldlM (exec env) n = .ok n₂ →
        n₂ = { n₁ with tokens := { n₁.tokens with rest := n₂.tokens.rest } } := by
  intro n hbatch n₁ hrun
  have hstart : InSlot env n n := ⟨⟨rfl, rfl, rfl⟩, rfl, genuine_final hinit events⟩
  have hbatch' : ∀ tx ∈ batch', Delivers env clock n tx :=
    fun tx htx => hbatch tx (hperm.mem_iff.mpr htx)
  have hstep : ∀ m tx m', InSlot env n m → Delivers env clock n tx → m.exec env tx = .ok m' →
      InSlot env n m' ∧ DeskStep env clock n m.desk tx m'.desk := by
    intro m tx m' hm htx hrun
    exact ⟨(htx.step hm hrun).1, (htx.step hm hrun).2.1⟩
  have hunique : ∀ d tx d₁ d₂, DeskStep env clock n d tx d₁ → DeskStep env clock n d tx d₂ →
      d₁ = d₂ := by
    rintro d tx d₁ d₂ ⟨p, hp, h₁⟩ ⟨p', hp', h₂⟩
    obtain rfl := Option.some.inj (hp.symm.trans hp')
    exact LzReceive.lands_unique h₁ h₂
  obtain ⟨hslot₁, hsteps⟩ := Exchange.steps_of_foldlM hstep hbatch hstart hrun
  -- the store's own part goes through in the other order as well
  have hsteps' : Exchange.Steps (DeskStep env clock n) batch' n.desk n₁.desk := by
    refine hsteps.perm ?_ hperm
    rintro d a b d₁ d₂ ⟨p, hp, h₁⟩ ⟨q, hq, h₂⟩
    obtain ⟨d₁', h₁', h₂'⟩ := LzReceive.lands_swap h₁ h₂
    exact ⟨d₁', ⟨q, hq, h₁'⟩, ⟨p, hp, h₂'⟩⟩
  constructor
  · have hdone := Exchange.forall_of_foldlM hstep hbatch hstart hrun
    refine Exchange.isOk_foldlM_iff
      (P := fun tx => Delivers env clock n tx ∧ ∃ m, InSlot env n m ∧ (m.exec env tx).isOk)
      hunique (fun m tx m' hm htx hrun => hstep m tx m' hm htx.1 hrun) ?_ ?_ hstart hsteps'
    · rintro m tx d hm ⟨htx, m₀, hm₀, hok⟩ ⟨p, hp, hlands⟩
      exact htx.isOk_iff hm₀ hok hm hp hlands
    · intro tx htx
      exact ⟨hbatch' tx htx, hdone tx (hperm.mem_iff.mpr htx)⟩
  · intro n₂ hrun'
    obtain ⟨hslot₂, hsteps₂⟩ := Exchange.steps_of_foldlM hstep hbatch' hstart hrun'
    refine hslot₁.eq hslot₂ (hsteps'.unique hunique hsteps₂) ?_ fun k => ?_
    · refine UInt64.toNat_inj.mp (Int.ofNat_inj.mp ?_)
      exact Exchange.eq_of_foldlM_perm (q := fun m : Node => (m.tokens.mint.supply.toNat : ℤ))
        (fun m tx m' hm htx hrun => ⟨(htx.step hm hrun).1, (htx.step hm hrun).2.2.1⟩) hperm
        hbatch hstart hrun hrun'
    · refine Int.ofNat_inj.mp ?_
      exact Exchange.eq_of_foldlM_perm (q := fun m : Node => (m.tokens.balance k : ℤ))
        (fun m tx m' hm htx hrun => ⟨(htx.step hm hrun).1, (htx.step hm hrun).2.2.2 k⟩) hperm
        hbatch hstart hrun hrun'

/-- A plain transfer to key `k`, and its delivery at clock reading 9. -/
def orderingParams (nonce : UInt64) (k : UInt8) (amountSd : UInt64) : LzReceiveParams :=
  ⟨30101, Pubkey.ofByte 40, nonce, FixedBytes.zero 32,
    MsgCodec.encode (Pubkey.ofByte k) amountSd .default none⟩

def orderingTx (nonce : UInt64) (k : UInt8) (amountSd : UInt64) : Tx :=
  let listed := LzReceiveTypes.apply .sample ⟨9, 0⟩ deliveryLocked
    ⟨.readonly sampleKey, .readonly (.ofByte 11)⟩ (orderingParams nonce k amountSd)
  ⟨⟨9, 0⟩, .sample, .lzReceive (.signer (.ofByte 50) :: (listed.toOption.getD []).tail)
    (orderingParams nonce k amountSd)⟩

theorem delivers_orderingTx {nonce : UInt64} {k : UInt8} {amountSd : UInt64}
    (hlisted : (LzReceiveTypes.apply .sample ⟨9, 0⟩ deliveryLocked
      ⟨.readonly sampleKey, .readonly (.ofByte 11)⟩ (orderingParams nonce k amountSd)).isOk) :
    Delivers .sample ⟨9, 0⟩ deliveryLocked (orderingTx nonce k amountSd) := by
  obtain ⟨listed, hlisted⟩ := Except.isOk_iff.mp hlisted
  rw [orderingTx, hlisted]
  exact .listed ⟨rfl, rfl⟩ rfl hlisted

theorem deliveries_commute_example : ∃ n₁ n₂,
    [orderingTx 1 22 700, orderingTx 2 23 300].foldlM (exec .sample) deliveryLocked = .ok n₁ ∧
    [orderingTx 2 23 300, orderingTx 1 22 700].foldlM (exec .sample) deliveryLocked = .ok n₂ ∧
    n₂ = { n₁ with tokens := { n₁.tokens with rest := n₂.tokens.rest } } := by
  have hrun : ([orderingTx 1 22 700, orderingTx 2 23 300].foldlM (exec .sample)
      deliveryLocked).isOk := by decide +kernel
  have hrun' : ([orderingTx 2 23 300, orderingTx 1 22 700].foldlM (exec .sample)
      deliveryLocked).isOk := by decide +kernel
  obtain ⟨n₁, hn₁⟩ := Except.isOk_iff.mp hrun
  obtain ⟨n₂, hn₂⟩ := Except.isOk_iff.mp hrun'
  have hbatch : ∀ tx ∈ [orderingTx 1 22 700, orderingTx 2 23 300],
      Delivers .sample ⟨9, 0⟩ deliveryLocked tx := by
    simp only [List.forall_mem_cons]
    exact ⟨delivers_orderingTx (by decide +kernel), delivers_orderingTx (by decide +kernel),
      by simp⟩
  exact ⟨n₁, n₂, hn₁, hn₂, (deliveries_commute .sample _ created_custodyTokens
    [.sample 0 (.sampleSetPeer 30101 (.peerAddress (Pubkey.ofByte 40))),
      .sample 0 (.sampleSend 30101 2000000)] ⟨9, 0⟩ _ _ (.swap _ _ []) hbatch n₁ hn₁).2 n₂ hn₂⟩

end Node

end CrossChain
