import CrossChain.Solana.Custody

/-!
# CrossChain.Solana.Delivery

When `lz_receive` succeeds.

The executor asks `lz_receive_types` for the accounts of a message, puts
itself in their front as the payer, and submits them with the message.  In
the meantime the store goes on.  The list stays good as long as the mint's
settings do (`SameSettings`), and what a constraint could find wrong with the
accounts of the program itself, no run makes so (`Genuine`).  What is left for
a delivery to fail on is in two parts: what the store checks or asks the
endpoint (`Accepts`), and the calls to the token program (`Pays`), which has
its own reasons to refuse them.
-/

namespace CrossChain

/-! ## genuine accounts -/

namespace Node

variable (env : Externals)

/-- What the program's accounts hold in every reachable state: each peer the
bump of its address, and the escrow the store as its authority. -/
structure Genuine (n : Node) : Prop where
  bump : ∀ eid peer, n.peers eid = some peer →
    peer.bump = (env.findProgramAddress (peerSeeds n.key eid) env.programId).2
  escrow : n.tokens.hands n.store.tokenEscrow = some n.key

variable {env}

/-- A peer written with its own bump keeps the bumps right. -/
theorem bump_setPeer {n m : Node} {eid : UInt32} {peer : PeerConfig}
    (h : ∀ eid peer, n.peers eid = some peer →
      peer.bump = (env.findProgramAddress (peerSeeds n.key eid) env.programId).2)
    (hkey : m.key = n.key) (hpeers : m.peers = n.peers)
    (hbump : peer.bump = (env.findProgramAddress (peerSeeds n.key eid) env.programId).2) :
    ∀ eid' peer', (m.setPeer eid peer).peers eid' = some peer' →
      peer'.bump = (env.findProgramAddress (peerSeeds (m.setPeer eid peer).key eid')
        env.programId).2 := by
  intro eid' peer' hfound
  have hkey' : (m.setPeer eid peer).key = n.key := hkey
  rw [hkey']
  by_cases heid : eid' = eid
  · subst heid
    obtain rfl : peer = peer' := by simpa [setPeer] using hfound
    exact hbump
  · exact h eid' peer' (by simpa [setPeer, heid, hpeers] using hfound)

theorem genuine_of_created {n : Node} (h : InitOFT.Created env n) : n.Genuine env := by
  obtain ⟨endpoint, tokens, acc, remaining, params, happly⟩ := h
  have hinit := InitOFT.initialized happly
  refine ⟨fun eid peer hfound => ?_, hinit.authority⟩
  rw [hinit.peers eid] at hfound
  contradiction

theorem Genuine.step {n : Node} (h : n.Genuine env) (ev : Event) :
    (n.step env ev).Genuine env := by
  have hstep := stepped env n ev
  constructor
  · generalize n.step env ev = n' at hstep ⊢
    cases hstep with
    | send _ hp =>
        have hbump := h.bump _ _ hp.found
        rw [hp.node]
        exact bump_setPeer h.bump rfl rfl hbump
    | lzReceive _ _ hd =>
        have hbump := h.bump _ _ hd.found
        rw [hd.node]
        exact bump_setPeer h.bump rfl rfl hbump
    | setOftConfig hc =>
        rw [hc.node]
        exact h.bump
    | setPeerConfig _ hp =>
        rw [hp.node]
        exact bump_setPeer h.bump rfl rfl rfl
    | withdrawFee _ hw =>
        rw [hw.node]
        exact h.bump
    | setPause | external | idle => exact h.bump
  · have hescrow : (n.step env ev).store.tokenEscrow = n.store.tokenEscrow :=
      congrArg (·.2.2.2.1) hstep.origin
    rw [hstep.key, hescrow]
    refine step_rule env (P := fun m => m.tokens.hands n.store.tokenEscrow = some n.key) h.escrow
      ?_ fun _ _ hpermits => hpermits.1.trans h.escrow
    exact fun _ _ _ hrun => (keeps_exec hrun).hands _ _ h.escrow

theorem genuine_final {n : Node} (h : InitOFT.Created env n) (events : List Event) :
    (Run.final (Node.step env) n events).Genuine env :=
  Run.final_of_step (I := Genuine env) (fun _ ev hn => hn.step ev) (genuine_of_created h) events

end Node

/-! ## when the constraints pass -/

namespace LzReceive

variable {env : Externals} {clock : Clock} {endpoint : Endpoint} {n : Node} {acc : Accounts}
  {params : LzReceiveParams}

/-- The ledger with account `dest` in it: as it is, or as the payer's opening
of the account leaves it. -/
def withDest (env : Externals) (t : Tokens) (payer dest toAddress : Pubkey) : Option Tokens :=
  if (t.accounts dest).isSome then some t else env.tokenProgram.create t payer dest toAddress

/-- `init_if_needed` asks for the owner of `token_dest` if it exists, and for
its opening if it does not. -/
theorem openTokenDest_iff (ha : Addressed env n acc params) {opened : Tokens} :
    openTokenDest env n acc = .ok opened ↔
      (∀ k ∈ n.tokens.hands acc.tokenDest.pubkey, k = acc.toAddress.pubkey) ∧
        withDest env n.tokens acc.payer.pubkey acc.tokenDest.pubkey acc.toAddress.pubkey =
          some opened := by
  simp only [openTokenDest, withDest, Tokens.hands, Except.bind_eq_ok, Except.require_eq_ok,
    exists_const, and_iff_right ha.tokenDest]
  cases n.tokens.accounts acc.tokenDest.pubkey with
  | none =>
      refine Except.okOr_eq_ok.trans (iff_and_self.mpr fun _ k hk => ?_)
      contradiction
  | some dest =>
      simp only [Except.bind_eq_ok, Except.require_eq_ok, Except.pure_eq_ok, exists_const,
        Option.map_some, Option.mem_def, Option.some.injEq, forall_eq', Option.isSome_some, if_true]

theorem tryAccounts_open {peer : PeerConfig} {tokens : Tokens}
    (h : tryAccounts env n acc params = .ok (peer, tokens)) :
    openTokenDest env n acc = .ok tokens := by
  simp only [tryAccounts, Except.bind_eq_ok, Except.pure_eq_ok, Prod.mk.injEq] at h
  obtain ⟨-, -, -, -, tokens', hopen, -, -, -, -, -, -, -, -, -, -, -, -, -, -, -, -, -, -, -, -, -,
    -, -, -, -, -, -, rfl⟩ := h
  exact hopen

/-- On accounts as listed, the constraints of a reachable store ask for the
peer, its address and `token_dest`. -/
theorem tryAccounts_iff (hg : n.Genuine env) (ha : Addressed env n acc params)
    {peer : PeerConfig} {opened : Tokens} :
    tryAccounts env n acc params = .ok (peer, opened) ↔
      n.peers params.srcEid = some peer ∧ peer.peerAddress = params.sender ∧
        (∀ k ∈ n.tokens.hands acc.tokenDest.pubkey, k = acc.toAddress.pubkey) ∧
        withDest env n.tokens acc.payer.pubkey acc.tokenDest.pubkey acc.toAddress.pubkey =
          some opened := by
  constructor
  · intro h
    have hconstrained := constrained h
    exact ⟨hconstrained.found, hconstrained.sender, (openTokenDest_iff ha).mp (tryAccounts_open h)⟩
  · rintro ⟨hfound, hsender, howner, hopens⟩
    have hescrow : n.TokenAccountOf n.key acc.tokenEscrow := by
      rw [Node.TokenAccountOf, ha.tokenEscrow.1]
      exact hg.escrow
    have hnone : n.tokens.accounts acc.tokenDest.pubkey = none → (env.tokenProgram.create n.tokens
        acc.payer.pubkey acc.tokenDest.pubkey acc.toAddress.pubkey).isSome := by
      intro hnone
      rw [withDest, hnone] at hopens
      exact Option.isSome_of_eq_some hopens
    obtain ⟨opened', htry⟩ := tryAccounts_of_addressed ha ⟨hfound, hg.bump _ _ hfound, hsender,
      hescrow, fun dest hdest => howner _ (Option.map_eq_some_iff.mpr ⟨dest, hdest, rfl⟩), hnone⟩
    have hopens' := ((openTokenDest_iff ha).mp (tryAccounts_open htry)).2
    rw [htry, Option.some.inj (hopens.symm.trans hopens')]

/-! ## when the tokens can be paid out -/

/-- The store itself lets the amount of a message go: an adapter has it in
value locked, and the mint of a native store has an authority. -/
def Releasable (env : Externals) (n : Node) (amountLd : ℕ) : Prop :=
  match n.store.oftType with
  | .adapter => amountLd ≤ n.store.tvlLd.toNat
  | .native => ∃ authority, n.tokens.mint.mintAuthority = some authority ∧ authority ≠ env.programId

/-- The call that pays account `dest` from ledger `t`: out of the escrow, or
by the mint's authority. -/
def payOut (env : Externals) (n : Node) (t : Tokens) (epoch : UInt64) (dest : Pubkey)
    (amountLd : UInt64) : Option Tokens :=
  match n.store.oftType with
  | .adapter => env.tokenProgram.transferChecked t epoch n.store.tokenEscrow dest n.key amountLd
      n.tokens.mint.decimals
  | .native => n.tokens.mint.mintAuthority.bind fun authority =>
      env.tokenProgram.mintTo t dest authority n.key amountLd

/-- The amount that a delivery reports. -/
def arriving (n : Node) (epoch : UInt64) (amountLd : ℕ) : ℕ :=
  match n.store.oftType with
  | .adapter => n.tokens.mint.net epoch amountLd
  | .native => amountLd

/-- `mint_authority` is given when the mint has one other than the program's
own id, which stands for none. -/
def MintAuthorityGiven (env : Externals) (n : Node) (acc : Accounts) : Prop :=
  ∀ authority, n.tokens.mint.mintAuthority = some authority → authority ≠ env.programId →
    acc.mintAuthority.isSome

theorem isOk_releaseTokens {opened : Tokens} {amountLd : UInt64}
    (hmint : opened.mint = n.tokens.mint) (hstore : acc.oftStore.pubkey = n.key)
    (hescrow : acc.tokenEscrow.pubkey = n.store.tokenEscrow)
    (hlisted : ∀ a ∈ acc.mintAuthority,
      a.pubkey ≠ env.programId ∧ n.tokens.mint.mintAuthority = some a.pubkey)
    (hgiven : MintAuthorityGiven env n acc) :
    (releaseTokens env n opened acc clock amountLd).isOk ↔ Releasable env n amountLd.toNat ∧
      (payOut env n opened clock.epoch acc.tokenDest.pubkey amountLd).isSome := by
  unfold releaseTokens Releasable payOut
  rw [hescrow, hstore, hmint]
  cases n.store.oftType with
  | adapter =>
      simp only [if_pos, Except.isOk_bind, Except.okOr_eq_ok, orAbort_eq_ok,
        UInt64.checkedSub_eq_some, Option.isSome_iff_exists]
      constructor
      · rintro ⟨tvlLd, htvl, moved, hmoved, -⟩
        exact ⟨by omega, moved, hmoved⟩
      · rintro ⟨hle, moved, hmoved⟩
        have htvl := n.store.tvlLd.toNat_lt_two_pow
        obtain ⟨tvlLd, htvl'⟩ := UInt64.exists_toNat_eq
          (n := n.store.tvlLd.toNat - amountLd.toNat) (by omega)
        have hnet := n.tokens.mint.net_le clock.epoch amountLd.toNat
        have hamount := amountLd.toNat_lt_two_pow
        obtain ⟨postFeeLd, hpost⟩ := UInt64.exists_toNat_eq
          (n := n.tokens.mint.net clock.epoch amountLd.toNat) (by omega)
        have hmint : moved.mint = n.tokens.mint :=
          (env.tokenProgram.transferred hmoved).mint.trans hmint
        refine ⟨tvlLd, by omega, moved, hmoved, postFeeLd, ?_, rfl⟩
        rw [getPostFeeAmountLd_eq_ok, hmint, hpost]
  | native =>
      have htype : ¬ OFTType.native = OFTType.adapter := by decide
      rw [if_neg htype]
      cases hgave : acc.mintAuthority with
      | none =>
          constructor
          · intro h
            contradiction
          · rintro ⟨⟨authority, hsome, hne⟩, -⟩
            have hgiven := hgiven authority hsome hne
            rw [hgave] at hgiven
            contradiction
      | some mintAuthority =>
          obtain ⟨hne, hsome⟩ := hlisted mintAuthority hgave
          simp only [hsome, Except.isOk_bind, Except.okOr_eq_ok, Option.some.injEq,
            exists_eq_left', Option.bind_some, Option.isSome_iff_exists]
          constructor
          · rintro ⟨moved, hmoved, -⟩
            exact ⟨hne, moved, hmoved⟩
          · rintro ⟨-, moved, hmoved⟩
            exact ⟨moved, hmoved, rfl⟩

/-! ## when a delivery succeeds -/

/-- The associated token account of a recipient. -/
def destOf (env : Externals) (n : Node) (toAddress : Pubkey) : Pubkey :=
  env.associatedTokenAddress toAddress n.store.tokenMint n.tokens.mint.tokenProgram

/-- The compose call is taken, on the accounts the endpoint asks for. -/
def Composes (env : Externals) (endpoint : Endpoint) (n : Node) (call : SendComposeParams) : Prop :=
  endpoint.sendCompose (env.getAccountsForSendCompose n.store.endpointProgram n.key call.toAddress
    call.guid call.index call.message) call

/-- The calls that the token program has to take: to open the recipient's
account if there is none, and to pay into it. -/
def Pays (env : Externals) (n : Node) (epoch : UInt64) (payer toAddress : Pubkey)
    (amountLd : UInt64) : Prop :=
  ∃ opened, withDest env n.tokens payer (destOf env n toAddress) toAddress = some opened ∧
    (payOut env n opened epoch (destOf env n toAddress) amountLd).isSome

/-- What else a delivery can fail on: the pause, the peer, the owner of the
recipient's token account, the endpoint, a rate limiter or its clock, what the
store has to release, and the compose call. -/
structure Accepts (env : Externals) (clock : Clock) (endpoint : Endpoint) (n : Node)
    (params : LzReceiveParams) (peer : PeerConfig) (toAddress : Pubkey)
    (amountSd amountLd : UInt64) : Prop where
  running : n.store.paused = false
  found : n.peers params.srcEid = some peer
  sender : peer.peerAddress = params.sender
  recipient : MsgCodec.sendTo params.message = some toAddress
  owner : ∀ k ∈ n.tokens.hands (destOf env n toAddress), k = toAddress
  cleared : endpoint.clear (env.getAccountsForClear n.store.endpointProgram n.key params.srcEid
    params.sender params.nonce)
    ⟨n.key, params.srcEid, params.sender, params.nonce, params.guid, params.message⟩
  decoded : MsgCodec.amountSd params.message = some amountSd
  scaled : amountSd.toNat * n.store.ld2sdRate.toNat = amountLd.toNat
  admitted : ∀ l, peer.inboundRateLimiter = some l →
    ∃ now, clock.currentTime = .ok now ∧ amountLd.toNat ≤ l.available now
  refilled : peer.outboundRateLimiter.isSome → ∃ now, clock.currentTime = .ok now
  releasable : Releasable env n amountLd.toNat
  composed : ∀ message, MsgCodec.composeMsg params.message = some message →
    Composes env endpoint n ⟨toAddress, params.guid, 0, ComposeMsgCodec.encode params.nonce
      params.srcEid (UInt64.ofNat (arriving n clock.epoch amountLd.toNat)) message⟩

/-- The accounts are those that `lz_receive_types` lists in the present
state. -/
structure Listed (env : Externals) (clock : Clock) (n : Node) (acc : Accounts)
    (remaining : List LzAccount) (params : LzReceiveParams) : Prop where
  addressed : Addressed env n acc params
  named : ∀ a ∈ acc.mintAuthority, a.pubkey ≠ env.programId
  given : MintAuthorityGiven env n acc
  clear : remaining.take env.clearMinAccountsLen = env.getAccountsForClear
    n.store.endpointProgram n.key params.srcEid params.sender params.nonce
  compose : LzReceiveTypes.accountsForComposing env clock n n.key acc.toAddress.pubkey params =
    .ok (remaining.drop env.clearMinAccountsLen)

theorem Listed.tokenDest {remaining : List LzAccount}
    (h : Listed env clock n acc remaining params) :
    acc.tokenDest.pubkey = destOf env n acc.toAddress.pubkey := by
  rw [h.addressed.tokenDest.2, h.addressed.tokenMint.1.1, ← h.addressed.tokenMint.1.2, destOf]

theorem isOk_onLimiter_refill {limiter : Option RateLimiter} {a : UInt64} :
    (onLimiter limiter (·.refill clock a)).isOk ↔
      (limiter.isSome → ∃ now, clock.currentTime = .ok now) := by
  cases limiter with
  | none =>
      refine iff_of_true rfl fun hsome => ?_
      contradiction
  | some l =>
      cases hclock : clock.currentTime with
      | ok now =>
          rw [onLimiter, RateLimiter.refill, hclock]
          exact iff_of_true rfl fun _ => ⟨now, rfl⟩
      | error e =>
          rw [onLimiter, RateLimiter.refill, hclock]
          simp only [reduceCtorEq, exists_false, Option.isSome_some, imp_false, not_true]
          exact iff_of_false Bool.false_ne_true id

/-- The amount a delivery reports is what arrives. -/
theorem Delivered.arriving {remaining : List LzAccount} {out : Outcome} {peer : PeerConfig}
    {outbound inbound : Option RateLimiter} {opened : Tokens} {amountSd amountLd : UInt64}
    (h : Delivered env clock endpoint n acc remaining params out peer outbound inbound opened
      amountSd amountLd) :
    out.event.amountReceivedLd = UInt64.ofNat (arriving n clock.epoch amountLd.toNat) := by
  unfold LzReceive.arriving
  cases htype : n.store.oftType with
  | adapter =>
      have hpost := (h.released.adapter htype).2.2
      rw [getPostFeeAmountLd_eq_ok, h.opens.mint] at hpost
      rw [hpost, UInt64.ofNat_toNat]
  | native => rw [(h.released.native htype).2.2, UInt64.ofNat_toNat]

/-- The compose call is all that can fail after `deliver`. -/
theorem isOk_apply_iff_deliver {accounts remaining : List LzAccount}
    (hlist : Accounts.ofList env accounts = some (acc, remaining)) :
    (apply env clock endpoint n accounts params).isOk ↔
      ∃ out, deliver env clock endpoint n acc remaining params = .ok out ∧
        ∀ call, out.compose = some call →
          endpoint.sendCompose (remaining.drop env.clearMinAccountsLen) call := by
  simp only [apply, Except.isOk_bind, Except.okOr_eq_ok, hlist, Option.some.injEq, exists_eq_left']
  refine exists_congr fun out => and_congr_right fun _ => ?_
  cases out.compose with
  | none =>
      refine iff_of_true rfl fun call hcall => ?_
      contradiction
  | some call =>
      simp only [Except.isOk_bind, Except.require_eq_ok, Option.some.injEq, forall_eq']
      constructor
      · rintro ⟨-, hsent, -⟩
        exact hsent
      · intro hsent
        exact ⟨(), hsent, rfl⟩

/-- The call a delivery makes is on the accounts the endpoint asks for. -/
theorem composed_iff {remaining : List LzAccount} {out : Outcome} {peer : PeerConfig}
    {outbound inbound : Option RateLimiter} {opened : Tokens} {amountSd amountLd : UInt64}
    (hl : Listed env clock n acc remaining params)
    (hdeliver : deliver env clock endpoint n acc remaining params = .ok out)
    (h : Delivered env clock endpoint n acc remaining params out peer outbound inbound opened
      amountSd amountLd) :
    (∀ call, out.compose = some call →
      endpoint.sendCompose (remaining.drop env.clearMinAccountsLen) call) ↔
    ∀ message, MsgCodec.composeMsg params.message = some message →
      Composes env endpoint n ⟨acc.toAddress.pubkey, params.guid, 0, ComposeMsgCodec.encode
        params.nonce params.srcEid (UInt64.ofNat (LzReceive.arriving n clock.epoch amountLd.toNat))
        message⟩ := by
  have haccounts := accountsForComposing_eq rfl hl.compose hdeliver
  have hcompose := h.compose
  rw [h.arriving] at hcompose
  cases hmsg : MsgCodec.composeMsg params.message with
  | none =>
      rw [hcompose, hmsg]
      simp only [Option.map_none, reduceCtorEq, false_implies, implies_true]
  | some message =>
      rw [hmsg] at hcompose
      rw [hcompose] at haccounts
      rw [hcompose, haccounts]
      simp only [Option.map_some, Option.some.injEq, forall_eq']
      exact Iff.rfl

/-- A delivery whose compose call is taken met every condition. -/
theorem accepts_of_deliver {remaining : List LzAccount} {out : Outcome}
    (hg : n.Genuine env) (hl : Listed env clock n acc remaining params)
    (hsent : ∀ call, out.compose = some call →
      endpoint.sendCompose (remaining.drop env.clearMinAccountsLen) call)
    (hdeliver : deliver env clock endpoint n acc remaining params = .ok out) :
    ∃ peer amountSd amountLd,
      Accepts env clock endpoint n params peer acc.toAddress.pubkey amountSd amountLd ∧
        Pays env n clock.epoch acc.payer.pubkey acc.toAddress.pubkey amountLd := by
  obtain ⟨peer, outbound, inbound, opened, amountSd, amountLd, hd⟩ := delivered hdeliver
  have hcomposed := (composed_iff hl hdeliver hd).mp hsent
  have hcleared := hd.cleared
  rw [hd.clear, hl.clear] at hcleared
  -- the constraints and the release, which `delivered` says less of
  simp only [deliver, Except.bind_eq_ok, orAbort_eq_ok, OFTStore.sd2ld_eq_ok] at hdeliver
  obtain ⟨⟨peer', opened'⟩, htry, -, -, -, -, -, -, amountSd', hsd, amountLd', hld, -, -, -, -,
    released, hrelease, -⟩ := hdeliver
  have hsd' : amountSd' = amountSd := Option.some.inj (hsd.symm.trans hd.decoded)
  have hamount : amountLd' = amountLd := by
    rw [← UInt64.toNat_inj, ← hld, ← hd.scaled, hsd']
  rw [hamount] at hrelease
  obtain ⟨-, -, howner, hopens⟩ := (tryAccounts_iff hg hl.addressed).mp htry
  obtain ⟨hreleasable, hpays⟩ := (isOk_releaseTokens (constrained htry).opens.mint
    hl.addressed.oftStore.1.1 hl.addressed.tokenEscrow.1
    (fun a ha => ⟨hl.named a ha, hl.addressed.mintAuthority a ha⟩) hl.given).mp
    (Except.isOk_iff.mpr ⟨released, hrelease⟩)
  rw [hl.tokenDest] at howner hopens hpays
  refine ⟨peer, amountSd, amountLd, ?_, opened', hopens, hpays⟩
  exact {
    running := hd.running
    found := hd.found
    sender := hd.sender
    recipient := hl.addressed.toAddress
    owner := howner
    cleared := hcleared
    decoded := hd.decoded
    scaled := hd.scaled
    admitted := RateLimiter.isOk_onLimiter_tryConsume.mp (Except.isOk_iff.mpr ⟨_, hd.consumed⟩)
    refilled := isOk_onLimiter_refill.mp (Except.isOk_iff.mpr ⟨_, hd.refilled⟩)
    releasable := hreleasable
    composed := hcomposed }

/-- A message that meets the conditions is delivered, but for its compose
call. -/
theorem deliver_of_accepts {remaining : List LzAccount} {peer : PeerConfig} {toAddress : Pubkey}
    {amountSd amountLd : UInt64} (hg : n.Genuine env)
    (hl : Listed env clock n acc remaining params)
    (h : Accepts env clock endpoint n params peer toAddress amountSd amountLd)
    (hpays : Pays env n clock.epoch acc.payer.pubkey toAddress amountLd) :
    ∃ out, deliver env clock endpoint n acc remaining params = .ok out := by
  have hto : acc.toAddress.pubkey = toAddress :=
    Option.some.inj (hl.addressed.toAddress.symm.trans h.recipient)
  have howner := h.owner
  obtain ⟨opened, hopens, hpaid⟩ := hpays
  rw [← hto, ← hl.tokenDest] at howner hopens hpaid
  have htry := (tryAccounts_iff hg hl.addressed).mpr ⟨h.found, h.sender, howner, hopens⟩
  have hlength : env.clearMinAccountsLen ≤ remaining.length := by
    have htake := congrArg List.length hl.clear
    rw [env.length_getAccountsForClear, List.length_take] at htake
    omega
  have hstore : acc.oftStore.pubkey = n.key := hl.addressed.oftStore.1.1
  have hlisted : ∀ a ∈ acc.mintAuthority,
      a.pubkey ≠ env.programId ∧ n.tokens.mint.mintAuthority = some a.pubkey :=
    fun a ha => ⟨hl.named a ha, hl.addressed.mintAuthority a ha⟩
  obtain ⟨inbound, hconsumed⟩ := Except.isOk_iff.mp
    (RateLimiter.isOk_onLimiter_tryConsume.mpr h.admitted)
  obtain ⟨outbound, hrefilled⟩ := Except.isOk_iff.mp
    ((isOk_onLimiter_refill (a := amountLd)).mpr h.refilled)
  obtain ⟨⟨tvlLd, tokens, received⟩, hrelease⟩ := Except.isOk_iff.mp
    ((isOk_releaseTokens (constrained htry).opens.mint hstore hl.addressed.tokenEscrow.1 hlisted
      hl.given).mpr ⟨h.releasable, hpaid⟩)
  simp only [deliver, Except.bind_eq_ok, Except.require_eq_ok, orAbort_eq_ok,
    OFTStore.sd2ld_eq_ok, hstore, hl.clear]
  exact ⟨_, _, htry, (), h.running, (), hlength, (), h.cleared, amountSd, h.decoded, amountLd,
    h.scaled, inbound, hconsumed, outbound, hrefilled, _, hrelease, rfl⟩

/-- On accounts as `lz_receive_types` lists them, `lz_receive` succeeds when
the store accepts the message and the token program pays it, and only then. -/
theorem isOk_apply {accounts remaining : List LzAccount}
    (hlist : Accounts.ofList env accounts = some (acc, remaining))
    (hg : n.Genuine env) (hl : Listed env clock n acc remaining params) :
    (apply env clock endpoint n accounts params).isOk ↔
      ∃ peer toAddress amountSd amountLd,
        Accepts env clock endpoint n params peer toAddress amountSd amountLd ∧
          Pays env n clock.epoch acc.payer.pubkey toAddress amountLd := by
  rw [isOk_apply_iff_deliver hlist]
  constructor
  · rintro ⟨out, hdeliver, hsent⟩
    obtain ⟨peer, amountSd, amountLd, h⟩ := accepts_of_deliver hg hl hsent hdeliver
    exact ⟨peer, _, amountSd, amountLd, h⟩
  · rintro ⟨peer, toAddress, amountSd, amountLd, h, hpays⟩
    obtain ⟨out, hdeliver⟩ := deliver_of_accepts hg hl h hpays
    obtain ⟨peer', outbound, inbound, opened, amountSd', amountLd', hd⟩ := delivered hdeliver
    have hto : acc.toAddress.pubkey = toAddress :=
      Option.some.inj (hl.addressed.toAddress.symm.trans h.recipient)
    have hamount : amountLd' = amountLd := by
      have hsd : amountSd' = amountSd := Option.some.inj (hd.decoded.symm.trans h.decoded)
      rw [← UInt64.toNat_inj, ← hd.scaled, ← h.scaled, hsd]
    refine ⟨out, hdeliver, (composed_iff hl hdeliver hd).mpr ?_⟩
    rw [hto, hamount]
    exact h.composed

end LzReceive

/-! ## the list over a run -/

/-- What the list of accounts depends on is the same: what `init_oft` fixed,
and the mint but for its supply. -/
structure Node.SameSettings (n n' : Node) : Prop where
  key : n'.key = n.key
  origin : n'.store.origin = n.store.origin
  mint : n'.tokens.mint = { n.tokens.mint with supply := n'.tokens.mint.supply }

theorem Node.SameSettings.trans {n n' n'' : Node} (h : n.SameSettings n')
    (h' : n'.SameSettings n'') : n.SameSettings n'' where
  key := h'.key.trans h.key
  origin := h'.origin.trans h.origin
  mint := by rw [h'.mint, h.mint]

namespace Node

/-- A ledger change by others leaves the mint as it is but for its supply. -/
def KeepsMint : Node × Event → Prop
  | (n, .external tokens) =>
      n.Permits tokens → tokens.mint = { n.tokens.mint with supply := tokens.mint.supply }
  | _ => True

theorem sameSettings_step {env : Externals} {n : Node} {ev : Event} (h : KeepsMint (n, ev)) :
    n.SameSettings (n.step env ev) := by
  have hstep := stepped env n ev
  refine ⟨hstep.key, hstep.origin, ?_⟩
  refine step_rule env (P := fun m => m.tokens.mint =
    { n.tokens.mint with supply := m.tokens.mint.supply }) rfl ?_ ?_
  · exact fun _ _ _ hrun => (keeps_exec hrun).mint
  · rintro tokens rfl hpermits
    exact h hpermits

theorem sameSettings_final {env : Externals} {n : Node} {events : List Event}
    (h : ∀ e ∈ Run.trace (step env) n events, KeepsMint e) :
    n.SameSettings (Run.final (step env) n events) :=
  Run.final_inv_of_trace (I := n.SameSettings)
    (fun _ _ hn hev => hn.trans (sameSettings_step hev)) ⟨rfl, rfl, rfl⟩ h

end Node

namespace LzReceiveTypes

/-- The answer of `lz_receive_types` depends on these and on the epoch. -/
theorem apply_congr {env : Externals} {clock clock' : Clock} {n n' : Node}
    (h : n.SameSettings n') (hepoch : clock'.epoch = clock.epoch) (acc : Accounts)
    (params : LzReceiveParams) : apply env clock' n' acc params = apply env clock n acc params := by
  obtain ⟨hkey, horigin, hmint⟩ := h
  obtain ⟨key, store, peers, mint, accounts, rest⟩ := n'
  obtain ⟨unixTimestamp, epoch⟩ := clock'
  obtain ⟨oftType, rate, tokenMint, tokenEscrow, endpointProgram, bump, tvlLd, admin, feeBps,
    paused, pauser, unpauser⟩ := store
  simp only [OFTStore.origin, Prod.mk.injEq] at hkey horigin hmint hepoch
  obtain ⟨rfl, rfl, rfl, rfl, rfl, rfl⟩ := horigin
  rw [hmint, hkey, hepoch]
  rfl

/-- With any payer in front, the answer reads as accounts that are listed. -/
theorem listed_of_apply {env : Externals} {clock : Clock} {n : Node} {acc : Accounts}
    {params : LzReceiveParams} {listed : List LzAccount} {payer : LzAccount}
    (hpayer : payer.isSigner ∧ payer.isWritable)
    (h : apply env clock n acc params = .ok listed) :
    ∃ recv remaining,
      LzReceive.Accounts.ofList env (payer :: listed.tail) = some (recv, remaining) ∧
        recv.payer = payer ∧ LzReceive.Listed env clock n recv remaining params := by
  simp only [apply, tryAccounts, Except.bind_eq_ok, Except.require_eq_ok, Except.pure_eq_ok,
    orAbort_eq_ok] at h
  obtain ⟨-, ⟨-, hstore, hmint, hprogram⟩, toAddress, hto, composing, hcomposing, rfl⟩ := h
  have hkey : acc.oftStore.pubkey = n.key := hstore.1
  have hclear := env.length_getAccountsForClear n.store.endpointProgram n.key params.srcEid
    params.sender params.nonce
  rw [hkey] at hcomposing ⊢
  refine ⟨_, _, rfl, rfl, ?_⟩
  exact {
    addressed := {
      payer := hpayer
      peer := ⟨rfl, rfl⟩
      oftStore := ⟨⟨rfl, hkey ▸ hstore.2⟩, rfl⟩
      tokenEscrow := ⟨rfl, rfl⟩
      toAddress := hto
      tokenDest := ⟨rfl, by rw [hmint]⟩
      tokenMint := ⟨⟨hmint, rfl⟩, rfl⟩
      mintAuthority := by
        intro a ha
        simp only [Option.mem_def, Option.ite_none_left_eq_some, Option.some.injEq] at ha
        obtain ⟨hne, rfl⟩ := ha
        cases hauthority : n.tokens.mint.mintAuthority with
        | none => rw [hauthority] at hne; exact absurd rfl hne
        | some k => rfl
      tokenProgram := hprogram
      associatedTokenProgram := rfl
      systemProgram := rfl
      eventCpi := ⟨by rw [env.eventSeed_eq], rfl⟩ }
    named := by
      intro a ha
      simp only [Option.mem_def, Option.ite_none_left_eq_some, Option.some.injEq] at ha
      obtain ⟨hne, rfl⟩ := ha
      exact hne
    given := by
      intro authority hauthority hne
      simp only [hauthority, Option.getD_some, if_neg hne]
      rfl
    clear := List.take_left' hclear
    compose := by
      rw [hcomposing]
      exact congrArg Except.ok (List.drop_left' hclear).symm }

end LzReceiveTypes

namespace Node

/-- Delivery: the executor asks for the accounts of a message in some
reachable state, and submits them with itself as the payer in any later one.
If the mint's settings stand and the epoch is the same, the delivery succeeds
exactly when, in the state it is submitted in, the store accepts the message
and the token program takes the calls that pay it. -/
theorem delivery_iff (env : Externals) (n₀ : Node) (hinit : InitOFT.Created env n₀)
    (before after : List Event) (clock clock' : Clock) (endpoint : Endpoint)
    (acc : LzReceiveTypes.Accounts) (params : LzReceiveParams) (payer : LzAccount)
    (listed : List LzAccount) :
    let asked := Run.final (step env) n₀ before
    let n := Run.final (step env) asked after
    LzReceiveTypes.apply env clock asked acc params = .ok listed →
    payer.isSigner ∧ payer.isWritable → clock'.epoch = clock.epoch →
    (∀ e ∈ Run.trace (step env) asked after, KeepsMint e) →
    ((LzReceive.apply env clock' endpoint n (payer :: listed.tail) params).isOk ↔
      ∃ peer toAddress amountSd amountLd,
        LzReceive.Accepts env clock' endpoint n params peer toAddress amountSd amountLd ∧
          LzReceive.Pays env n clock'.epoch payer.pubkey toAddress amountLd) := by
  intro asked n hlisted hpayer hepoch hmint
  have hgenuine : n.Genuine env := by
    have hreach := genuine_final hinit (before ++ after)
    rwa [Run.final_append] at hreach
  -- the answer in the later state is the same
  have hlater : LzReceiveTypes.apply env clock' n acc params = .ok listed := by
    rw [LzReceiveTypes.apply_congr (sameSettings_final hmint) hepoch, hlisted]
  obtain ⟨recv, remaining, hlist, rfl, hl⟩ := LzReceiveTypes.listed_of_apply hpayer hlater
  exact LzReceive.isOk_apply hlist hgenuine hl

/-- A composed transfer to an adapter, on accounts asked for before the
tokens it pays out were locked. -/
def deliveryParams : LzReceiveParams :=
  ⟨30101, Pubkey.ofByte 40, 1, FixedBytes.zero 32,
    MsgCodec.encode (Pubkey.ofByte 22) 700 (.ofByte 41) (some [1])⟩

def deliveryAsked : Node := Run.final (step .sample) (sample .adapter custodyTokens)
  [.sample 0 (.sampleSetPeer 30101 (.peerAddress (Pubkey.ofByte 40)))]

def deliveryLocked : Node :=
  Run.final (step .sample) deliveryAsked [.sample 0 (.sampleSend 30101 2000000)]

theorem created_custodyTokens : InitOFT.Created .sample (sample .adapter custodyTokens) :=
  ⟨.sample, custodyTokens, .sample, [], ⟨.adapter, .ofByte 13, 6, none⟩, rfl⟩

theorem delivery_iff_example :
    ∃ peer toAddress amountSd amountLd, LzReceive.Accepts .sample ⟨9, 0⟩ .sample deliveryLocked
      deliveryParams peer toAddress amountSd amountLd ∧
        LzReceive.Pays .sample deliveryLocked 0 (.ofByte 50) toAddress amountLd := by
  have hruns : (do
      let listed ← LzReceiveTypes.apply .sample ⟨0, 0⟩ deliveryAsked
        ⟨.readonly sampleKey, .readonly (.ofByte 11)⟩ deliveryParams
      LzReceive.apply .sample ⟨9, 0⟩ .sample deliveryLocked
        (.signer (.ofByte 50) :: listed.tail) deliveryParams).isOk := by decide +kernel
  obtain ⟨listed, hlisted, hdelivered⟩ := Except.isOk_bind.mp hruns
  exact (delivery_iff .sample _ created_custodyTokens
    [.sample 0 (.sampleSetPeer 30101 (.peerAddress (Pubkey.ofByte 40)))]
    [.sample 0 (.sampleSend 30101 2000000)] ⟨0, 0⟩ ⟨9, 0⟩ .sample
    ⟨.readonly sampleKey, .readonly (.ofByte 11)⟩ deliveryParams (.signer (.ofByte 50)) listed
    hlisted ⟨rfl, rfl⟩ rfl (by simp [KeepsMint, Event.sample])).mp hdelivered

end Node

end CrossChain
