import CrossChain.Solana.State

/-!
# CrossChain.Solana.Node

What an instruction of the program finds on chain: one store, its peers and
the ledger of its mint.

Anchor checks the accounts of an instruction against the constraints its
struct declares before the handler runs.  The constraints that several
instructions declare are here, each under the attribute it stands for.
-/

namespace CrossChain

/-- The accounts under one store.  A peer account is addressed by seeds that
end in the remote endpoint id, so there is one for each id at most. -/
structure Node where
  key : Pubkey
  store : OFTStore
  peers : UInt32 → Option PeerConfig
  tokens : Tokens

namespace Node

/-- Write the peer account of an endpoint id. -/
def setPeer (n : Node) (eid : UInt32) (p : PeerConfig) : Node :=
  { n with peers := Function.update n.peers eid (some p) }

/-! ## account constraints -/

/-- The seeds of the store whose escrow is `tokenEscrow`. -/
def storeSeeds (tokenEscrow : Pubkey) : List (List UInt8) := [OFT_SEED, tokenEscrow.val]

/-- The seeds of the peer account of an endpoint id. -/
def peerSeeds (key : Pubkey) (eid : UInt32) : List (List UInt8) :=
  [PEER_SEED, key.val, Bytes.ofU32 eid]

/-- `seeds = [OFT_SEED, oft_store.token_escrow.as_ref()], bump = oft_store.bump` -/
def StoreAt (n : Node) (env : Externals) (a : LzAccount) : Prop :=
  a.pubkey = n.key ∧
    env.createProgramAddress (storeSeeds n.store.tokenEscrow ++ [[n.store.bump]]) env.programId =
      some a.pubkey

/-- `seeds = [PEER_SEED, oft_store.key().as_ref(), &eid.to_be_bytes()], bump = peer.bump` -/
def PeerAt (n : Node) (env : Externals) (eid : UInt32) (p : PeerConfig) (a : LzAccount) : Prop :=
  env.createProgramAddress (peerSeeds n.key eid ++ [[p.bump]]) env.programId = some a.pubkey

/-- `token::authority = authority`, on an account of the store's mint. -/
def TokenAccountOf (n : Node) (authority : Pubkey) (a : LzAccount) : Prop :=
  (n.tokens.accounts a.pubkey).map (·.authority) = some authority

/-- `address = oft_store.token_escrow, token::authority = oft_store` -/
def EscrowAt (n : Node) (a : LzAccount) : Prop :=
  a.pubkey = n.store.tokenEscrow ∧ n.TokenAccountOf n.key a

/-- `address = oft_store.token_mint, mint::token_program = token_program` -/
def MintAt (n : Node) (a tokenProgram : LzAccount) : Prop :=
  a.pubkey = n.store.tokenMint ∧ n.tokens.mint.tokenProgram = tokenProgram.pubkey

instance (n : Node) (env : Externals) (a : LzAccount) : Decidable (n.StoreAt env a) :=
  inferInstanceAs (Decidable (_ ∧ _))

instance (n : Node) (env : Externals) (eid : UInt32) (p : PeerConfig) (a : LzAccount) :
    Decidable (n.PeerAt env eid p a) := inferInstanceAs (Decidable (_ = _))

instance (n : Node) (authority : Pubkey) (a : LzAccount) :
    Decidable (n.TokenAccountOf authority a) := inferInstanceAs (Decidable (_ = _))

instance (n : Node) (a : LzAccount) : Decidable (n.EscrowAt a) :=
  inferInstanceAs (Decidable (_ ∧ _))

instance (n : Node) (a tokenProgram : LzAccount) : Decidable (n.MintAt a tokenProgram) :=
  inferInstanceAs (Decidable (_ ∧ _))

/-- The address of `sample`. -/
def sampleKey : Pubkey :=
  (Externals.sample.findProgramAddress (storeSeeds (.ofByte 12)) (.ofByte 1)).1

/-- A store as `init_oft` leaves it, with six shared decimals. -/
def sample (oftType : OFTType) (tokens : Tokens) : Node where
  key := sampleKey
  store := {
    oftType
    ld2sdRate := 1000
    tokenMint := .ofByte 11
    tokenEscrow := .ofByte 12
    endpointProgram := .ofByte 2
    bump := 255
    tvlLd := 0
    admin := .ofByte 13
    defaultFeeBps := 0
    paused := false
    pauser := none
    unpauser := none }
  peers _ := none
  tokens := tokens.create (.ofByte 12) sampleKey

end Node

/-- What `#[event_cpi]` adds to an instruction: the event authority, and the
program itself for `emit_cpi!` to invoke. -/
def EventCpi (env : Externals) (eventAuthority program : LzAccount) : Prop :=
  eventAuthority.pubkey = (env.findProgramAddress [EVENT_AUTHORITY_SEED] env.programId).1 ∧
    program.pubkey = env.programId

instance (env : Externals) (eventAuthority program : LzAccount) :
    Decidable (EventCpi env eventAuthority program) := inferInstanceAs (Decidable (_ ∧ _))

/-! ## limiters in an instruction -/

/-- `self.method(..)?`: what the method leaves of `self`, when it succeeds. -/
def orFail {α : Type} : Result Unit × α → Result α
  | (.ok (), a) => .ok a
  | (.error e, _) => .error e

theorem orFail_eq_ok {α : Type} {r : Result Unit × α} {a : α} :
    orFail r = .ok a ↔ r = (.ok (), a) := by
  obtain ⟨u, b⟩ := r
  cases u with
  | ok u => simp [orFail]
  | error e => simp [orFail]

/-- `if let Some(rate_limiter) = limiter.as_mut() { rate_limiter.method(..)?; }` -/
def onLimiter (limiter : Option RateLimiter)
    (method : RateLimiter → Result Unit × RateLimiter) : Result (Option RateLimiter) :=
  match limiter with
  | some l => do
      let l ← orFail (method l)
      pure (some l)
  | none => pure none

theorem onLimiter_none {method : RateLimiter → Result Unit × RateLimiter}
    {limiter : Option RateLimiter} :
    onLimiter none method = .ok limiter ↔ limiter = none := by
  rw [onLimiter, Except.pure_eq_ok, eq_comm]

theorem onLimiter_some {method : RateLimiter → Result Unit × RateLimiter} {l : RateLimiter}
    {limiter : Option RateLimiter} :
    onLimiter (some l) method = .ok limiter ↔
      ∃ l', method l = (.ok (), l') ∧ some l' = limiter := by
  simp only [onLimiter, Except.bind_eq_ok, orFail_eq_ok, Except.pure_eq_ok]

/-- A limiter set before a method is set after it, and only then. -/
theorem isSome_onLimiter {method : RateLimiter → Result Unit × RateLimiter}
    {limiter limiter' : Option RateLimiter} (h : onLimiter limiter method = .ok limiter') :
    limiter'.isSome = limiter.isSome := by
  cases limiter with
  | none => rw [onLimiter_none.mp h]
  | some l =>
      obtain ⟨l', -, rfl⟩ := onLimiter_some.mp h
      rfl

/-- With a readable clock, a limiter lets through what is available. -/
theorem RateLimiter.onLimiter_tryConsume {l : RateLimiter} {clock : Clock} {now : UInt64}
    (hclock : clock.currentTime = .ok now) (a : UInt64) :
    if a.toNat ≤ l.available now then (onLimiter (some l) (·.tryConsume clock a)).isOk
    else onLimiter (some l) (·.tryConsume clock a) = .error (.oft .rateLimitExceeded) := by
  have havailable := l.toNat_tokens_poll now
  rw [onLimiter, tryConsume_eq hclock]
  split
  · next hle =>
    obtain ⟨left, hleft⟩ : ∃ left, (l.refillAt now 0).tokens.checkedSub a = some left := by
      refine ⟨(l.refillAt now 0).tokens - a, ?_⟩
      rw [UInt64.checkedSub, if_pos (by omega)]
    rw [hleft]
    rfl
  · next hlt =>
    have hnone : (l.refillAt now 0).tokens.checkedSub a = none :=
      UInt64.checkedSub_eq_none.mpr (by omega)
    rw [hnone]
    rfl

/-- A limiter that is set lets an amount through when it can read the clock
and has as much available. -/
theorem RateLimiter.isOk_onLimiter_tryConsume {limiter : Option RateLimiter} {clock : Clock}
    {a : UInt64} : (onLimiter limiter (·.tryConsume clock a)).isOk ↔
      ∀ l, limiter = some l → ∃ now, clock.currentTime = .ok now ∧ a.toNat ≤ l.available now := by
  cases limiter with
  | none => exact ⟨fun _ => nofun, fun _ => rfl⟩
  | some l =>
      simp only [Option.some.injEq, forall_eq']
      cases hclock : clock.currentTime with
      | error e =>
          simp only [onLimiter, tryConsume, refill, hclock, reduceCtorEq, false_and, exists_false,
            iff_false]
          exact Bool.false_ne_true
      | ok now =>
          have hdecides := onLimiter_tryConsume (l := l) hclock a
          simp only [Except.ok.injEq, exists_eq_left']
          split at hdecides
          · next hle => exact iff_of_true hdecides hle
          · next hlt =>
            rw [hdecides]
            exact iff_of_false Bool.false_ne_true hlt

end CrossChain
