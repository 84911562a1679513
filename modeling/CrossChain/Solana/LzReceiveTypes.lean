import CrossChain.Solana.LzReceive

/-!
# CrossChain.Solana.LzReceiveTypes

`lz_receive_types` (instructions/lz_receive_types.rs) tells the executor
which accounts to pass to `lz_receive` for a message.

The two are written apart and have to agree position by position.  What
`lz_receive` demands of its accounts is split here into what it demands of
the list (`Addressed`) and of the contents of the accounts listed
(`Loaded`); `lzReceiveTypes_sound` says that the list always meets the
first part, and names the compose accounts of the call that is made.
-/

namespace CrossChain

namespace LzReceiveTypes

/-- The accounts of `LzReceiveTypes`. -/
structure Accounts where
  oftStore : LzAccount
  tokenMint : LzAccount
  deriving DecidableEq, Repr

/-- The constraints of `LzReceiveTypes`. -/
def tryAccounts (env : Externals) (n : Node) (acc : Accounts) : Result Unit := do
  require (n.StoreAt env acc.oftStore) .constraint
  require (acc.tokenMint.pubkey = n.store.tokenMint ∧
    env.isTokenProgram n.tokens.mint.tokenProgram) .constraint

/-- Remaining accounts 9..16: for the compose call, when the message makes
one. -/
def accountsForComposing (env : Externals) (clock : Clock) (n : Node) (key toAddress : Pubkey)
    (params : LzReceiveParams) : Result (List LzAccount) :=
  match MsgCodec.composeMsg params.message with
  | some message => do
      let amountSd ← orAbort (MsgCodec.amountSd params.message)
      let amountLd ← n.store.sd2ld amountSd
      let amountReceivedLd ←
        (if n.store.oftType = .native then pure amountLd
          else getPostFeeAmountLd n.tokens.mint clock amountLd)
      pure (env.getAccountsForSendCompose n.store.endpointProgram key toAddress params.guid 0
        (ComposeMsgCodec.encode params.nonce params.srcEid amountReceivedLd message))
  | none => pure []

/-- `LzReceiveTypes::apply`. -/
def apply (env : Externals) (clock : Clock) (n : Node) (acc : Accounts)
    (params : LzReceiveParams) : Result (List LzAccount) := do
  tryAccounts env n acc
  let key := acc.oftStore.pubkey
  let (peer, _) := env.findProgramAddress (Node.peerSeeds key params.srcEid) env.programId
  let toAddress ← orAbort (MsgCodec.sendTo params.message)
  let tokenProgram := n.tokens.mint.tokenProgram
  let tokenDest := env.associatedTokenAddress toAddress n.store.tokenMint tokenProgram
  let mintAuthority := n.tokens.mint.mintAuthority.getD env.programId
  let (eventAuthority, _) := env.findProgramAddress [env.eventSeed] env.programId
  let accounts : List LzAccount := [
    { pubkey := .default, isSigner := true, isWritable := true },
    { pubkey := peer, isSigner := false, isWritable := true },
    { pubkey := key, isSigner := false, isWritable := true },
    { pubkey := n.store.tokenEscrow, isSigner := false, isWritable := true },
    { pubkey := toAddress, isSigner := false, isWritable := false },
    { pubkey := tokenDest, isSigner := false, isWritable := true },
    { pubkey := acc.tokenMint.pubkey, isSigner := false, isWritable := true },
    { pubkey := mintAuthority, isSigner := false, isWritable := false },
    { pubkey := tokenProgram, isSigner := false, isWritable := false },
    { pubkey := env.associatedTokenId, isSigner := false, isWritable := false },
    { pubkey := env.systemProgramId, isSigner := false, isWritable := false },
    { pubkey := eventAuthority, isSigner := false, isWritable := false },
    { pubkey := env.programId, isSigner := false, isWritable := false }]
  let accountsForClear := env.getAccountsForClear n.store.endpointProgram key params.srcEid
    params.sender params.nonce
  let accountsForComposing ← accountsForComposing env clock n key toAddress params
  pure (accounts ++ accountsForClear ++ accountsForComposing)

end LzReceiveTypes

/-! ## what `lz_receive` demands -/

namespace LzReceive

/-- The address, seed, writability and signer constraints of `LzReceive`,
those that the list of accounts has to meet. -/
structure Addressed (env : Externals) (n : Node) (acc : Accounts) (params : LzReceiveParams) :
    Prop where
  payer : acc.payer.isSigner ∧ acc.payer.isWritable
  peer : acc.peer.pubkey =
    (env.findProgramAddress (Node.peerSeeds n.key params.srcEid) env.programId).1 ∧
      acc.peer.isWritable
  oftStore : n.StoreAt env acc.oftStore ∧ acc.oftStore.isWritable
  tokenEscrow : acc.tokenEscrow.pubkey = n.store.tokenEscrow ∧ acc.tokenEscrow.isWritable
  toAddress : MsgCodec.sendTo params.message = some acc.toAddress.pubkey
  tokenDest : acc.tokenDest.isWritable ∧ acc.tokenDest.pubkey = env.associatedTokenAddress
    acc.toAddress.pubkey acc.tokenMint.pubkey acc.tokenProgram.pubkey
  tokenMint : n.MintAt acc.tokenMint acc.tokenProgram ∧ acc.tokenMint.isWritable
  mintAuthority : ∀ a ∈ acc.mintAuthority, n.tokens.mint.mintAuthority = some a.pubkey
  tokenProgram : env.isTokenProgram acc.tokenProgram.pubkey
  associatedTokenProgram : acc.associatedTokenProgram.pubkey = env.associatedTokenId
  systemProgram : acc.systemProgram.pubkey = env.systemProgramId
  eventCpi : EventCpi env acc.eventAuthority acc.program

/-- The constraints on what the accounts hold: the peer is there, with the
bump of its address, and is the sender; the store owns the escrow; and
`token_dest` belongs to the recipient if it exists, and can be opened if it
does not. -/
structure Loaded (env : Externals) (n : Node) (acc : Accounts) (params : LzReceiveParams)
    (peer : PeerConfig) : Prop where
  found : n.peers params.srcEid = some peer
  bump : peer.bump =
    (env.findProgramAddress (Node.peerSeeds n.key params.srcEid) env.programId).2
  sender : peer.peerAddress = params.sender
  tokenEscrow : n.TokenAccountOf n.key acc.tokenEscrow
  tokenDest : ∀ dest ∈ n.tokens.accounts acc.tokenDest.pubkey,
    dest.authority = acc.toAddress.pubkey
  opens : n.tokens.accounts acc.tokenDest.pubkey = none → (env.tokenProgram.create n.tokens
    acc.payer.pubkey acc.tokenDest.pubkey acc.toAddress.pubkey).isSome

/-- Nothing else is demanded. -/
theorem tryAccounts_of_addressed {env : Externals} {n : Node} {acc : Accounts}
    {params : LzReceiveParams} {peer : PeerConfig} (ha : Addressed env n acc params)
    (hl : Loaded env n acc params peer) :
    ∃ tokens, tryAccounts env n acc params = .ok (peer, tokens) := by
  have hpeer : n.PeerAt env params.srcEid peer acc.peer := by
    rw [Node.PeerAt, hl.bump, ha.peer.1, env.create_find]
  have hopen : ∃ tokens, openTokenDest env n acc = .ok tokens := by
    have hdest := hl.tokenDest
    have hopens := hl.opens
    simp only [openTokenDest, Except.bind_eq_ok, Except.require_eq_ok]
    cases haccount : n.tokens.accounts acc.tokenDest.pubkey with
    | none =>
        obtain ⟨tokens, hcreate⟩ := Option.isSome_iff_exists.mp (hopens haccount)
        exact ⟨tokens, (), ha.tokenDest, Except.okOr_eq_ok.mpr hcreate⟩
    | some dest =>
        rw [haccount] at hdest
        refine ⟨n.tokens, (), ha.tokenDest, ?_⟩
        simp only [Except.bind_eq_ok, Except.require_eq_ok, Except.pure_eq_ok]
        exact ⟨(), hdest dest rfl, trivial⟩
  obtain ⟨tokens, hopen⟩ := hopen
  refine ⟨tokens, ?_⟩
  simp only [tryAccounts, Except.bind_eq_ok, Except.require_eq_ok, Except.okOr_eq_ok,
    Except.pure_eq_ok, orAbort_eq_ok]
  exact ⟨(), ha.payer.1, peer, hl.found, tokens, hopen, (), ha.payer.2, (), ⟨hpeer, ha.peer.2⟩, (),
    hl.sender, (), ha.oftStore, (), ⟨⟨ha.tokenEscrow.1, hl.tokenEscrow⟩, ha.tokenEscrow.2⟩,
    acc.toAddress.pubkey, ha.toAddress, (), rfl, (), ha.tokenMint, (), ha.mintAuthority, (),
    ha.tokenProgram, (), ha.associatedTokenProgram, (), ha.systemProgram, (), ha.eventCpi, rfl⟩

end LzReceive

/-! ## the list meets it -/

/-- The compose accounts are those of the call `lz_receive` makes: the amount
recomputed from the message is the amount the transfer delivers. -/
theorem accountsForComposing_eq {env : Externals} {clock clock' : Clock} {endpoint : Endpoint}
    {n : Node} {acc : LzReceive.Accounts} {remaining accounts : List LzAccount}
    {params : LzReceiveParams} {out : LzReceive.Outcome} (hepoch : clock'.epoch = clock.epoch)
    (hlist : LzReceiveTypes.accountsForComposing env clock n n.key acc.toAddress.pubkey params =
      .ok accounts)
    (hout : LzReceive.deliver env clock' endpoint n acc remaining params = .ok out) :
    accounts = match out.compose with
      | some c => env.getAccountsForSendCompose n.store.endpointProgram n.key c.toAddress c.guid
          c.index c.message
      | none => [] := by
  obtain ⟨peer, outbound, inbound, opened, amountSd, amountLd, h⟩ := LzReceive.delivered hout
  unfold LzReceiveTypes.accountsForComposing at hlist
  rw [h.compose]
  cases hmsg : MsgCodec.composeMsg params.message with
  | none =>
      rw [hmsg] at hlist
      exact (Except.pure_eq_ok.mp hlist).symm
  | some message =>
      simp only [hmsg, Except.bind_eq_ok, Except.pure_eq_ok, orAbort_eq_ok, h.decoded,
        Option.some.injEq] at hlist
      obtain ⟨sd, rfl, ld, hld, received, hreceived, rfl⟩ := hlist
      have hld' : ld = amountLd := by
        rw [OFTStore.sd2ld_eq_ok, h.scaled] at hld
        exact (UInt64.toNat_inj.mp hld).symm
      subst hld'
      suffices heq : received = out.event.amountReceivedLd by rw [heq]; rfl
      cases htype : n.store.oftType with
      | native =>
          rw [if_pos htype, Except.pure_eq_ok] at hreceived
          rw [← hreceived, (h.released.native htype).2.2]
      | adapter =>
          rw [if_neg (by rw [htype]; simp), getPostFeeAmountLd_eq_ok] at hreceived
          have hpost := (h.released.adapter htype).2.2
          rw [getPostFeeAmountLd_eq_ok, h.opens.mint, hepoch, hreceived] at hpost
          exact UInt64.toNat_inj.mp hpost

/-- `lz_receive_types` is sound: its list reads as accounts that meet every
constraint `lz_receive` puts on the list, so that its own checks can fail on
the contents of accounts only; the remaining accounts are those for `clear`,
in the slice the code takes, and those of the compose call it makes, if it
makes one. -/
theorem lzReceiveTypes_sound (env : Externals) (clock : Clock) (n : Node)
    (acc : LzReceiveTypes.Accounts) (params : LzReceiveParams) (accounts : List LzAccount)
    (h : LzReceiveTypes.apply env clock n acc params = .ok accounts) :
    ∃ recv remaining, LzReceive.Accounts.ofList env accounts = some (recv, remaining) ∧
      LzReceive.Addressed env n recv params ∧
      (∀ peer, LzReceive.Loaded env n recv params peer →
        ∃ tokens, LzReceive.tryAccounts env n recv params = .ok (peer, tokens)) ∧
      remaining.take env.clearMinAccountsLen = env.getAccountsForClear n.store.endpointProgram
        n.key params.srcEid params.sender params.nonce ∧
      (∀ clock' endpoint out, clock'.epoch = clock.epoch →
        LzReceive.deliver env clock' endpoint n recv remaining params = .ok out →
        (out.compose.isSome ↔ 40 < params.message.length) ∧
        remaining.drop env.clearMinAccountsLen = match out.compose with
          | some c => env.getAccountsForSendCompose n.store.endpointProgram n.key c.toAddress
              c.guid c.index c.message
          | none => []) := by
  simp only [LzReceiveTypes.apply, LzReceiveTypes.tryAccounts, Except.bind_eq_ok,
    Except.require_eq_ok, Except.pure_eq_ok, orAbort_eq_ok] at h
  obtain ⟨-, ⟨-, hstore, hmint, hprogram⟩, toAddress, hto, composing, hcomposing, rfl⟩ := h
  have hkey : acc.oftStore.pubkey = n.key := hstore.1
  have hclear := env.length_getAccountsForClear n.store.endpointProgram n.key params.srcEid
    params.sender params.nonce
  rw [hkey] at hcomposing ⊢
  refine ⟨_, _, rfl, ?addressed, fun peer => LzReceive.tryAccounts_of_addressed ?addressed,
    ?clear, ?compose⟩
  case addressed =>
    exact {
      payer := ⟨rfl, rfl⟩
      peer := ⟨rfl, rfl⟩
      oftStore := ⟨⟨rfl, hkey ▸ hstore.2⟩, rfl⟩
      tokenEscrow := ⟨rfl, rfl⟩
      toAddress := hto
      tokenDest := ⟨rfl, by rw [hmint]⟩
      tokenMint := ⟨⟨hmint, rfl⟩, rfl⟩
      mintAuthority := by
        intro a ha
        simp only [Option.mem_def, Option.ite_none_left_eq_some, Option.some.injEq] at ha
        obtain ⟨hne, rfl⟩ := ha
        cases hauthority : n.tokens.mint.mintAuthority with
        | none => rw [hauthority] at hne; exact absurd rfl hne
        | some k => rfl
      tokenProgram := hprogram
      associatedTokenProgram := rfl
      systemProgram := rfl
      eventCpi := ⟨by rw [env.eventSeed_eq], rfl⟩ }
  case clear =>
    exact List.take_left' hclear
  case compose =>
    intro clock' endpoint out hepoch hout
    have hcompose := accountsForComposing_eq hepoch hcomposing hout
    obtain ⟨peer, outbound, inbound, opened, amountSd, amountLd, hd⟩ := LzReceive.delivered hout
    refine ⟨?_, ?_⟩
    · rw [hd.compose, Option.isSome_map, MsgCodec.composeMsg, MsgCodec.COMPOSE_MSG_OFFSET]
      split <;> simp_all
    · rw [← hcompose]
      exact List.drop_left' hclear

/-- The accounts of a composed transfer to an adapter whose mint takes a
fee. -/
theorem lzReceiveTypes_sound_example :
    let n := Node.sample .adapter (.sample 5000000 .default (some ⟨50, 100, by decide⟩))
    let params : LzReceiveParams := ⟨30101, Pubkey.ofByte 40, 1, FixedBytes.zero 32,
      MsgCodec.encode (Pubkey.ofByte 22) 7 (.ofByte 41) (some [1])⟩
    ∃ accounts recv remaining,
      LzReceiveTypes.apply .sample ⟨0, 5⟩ n ⟨⟨n.key, false, false⟩, ⟨.ofByte 11, false, false⟩⟩
        params = .ok accounts ∧
      LzReceive.Accounts.ofList .sample accounts = some (recv, remaining) ∧
      LzReceive.Addressed .sample n recv params := by
  intro n params
  have hok : (LzReceiveTypes.apply .sample ⟨0, 5⟩ n
      ⟨⟨n.key, false, false⟩, ⟨.ofByte 11, false, false⟩⟩ params).isOk := by decide +kernel
  obtain ⟨accounts, haccounts⟩ := Except.exists_eq_ok_of_isOk hok
  obtain ⟨recv, remaining, hlist, haddressed, -⟩ := lzReceiveTypes_sound _ _ _ _ _ _ haccounts
  exact ⟨accounts, recv, remaining, haccounts, hlist, haddressed⟩

end CrossChain
