import CrossChain.Solana.Program

/-!
# CrossChain.Solana.Custody

Whose tokens the program moves, and on whose signature.

The token program moves what it is told to, for whoever it is told signs, and
the store signs for its escrow.  `Change` lists the ways a transaction can
change the balance of a token account, whatever the account; the only account
that a transaction can take from without the signature of the account's
authority is the escrow, for a delivery or for a withdrawal by the admin.
-/

namespace CrossChain

namespace Tokens

/-! ## what the instructions keep -/

/-- No account is closed or changes hands, and of the mint at most the supply
changes. -/
structure Keeps (t t' : Tokens) : Prop where
  hands : ∀ k authority, t.hands k = some authority → t'.hands k = some authority
  mint : t'.mint = { t.mint with supply := t'.mint.supply }

theorem Keeps.trans {t t' t'' : Tokens} (h : t.Keeps t') (h' : t'.Keeps t'') : t.Keeps t'' where
  hands k authority hk := h'.hands k authority (h.hands k authority hk)
  mint := by rw [h'.mint, h.mint]

theorem Kept.keeps {t t' : Tokens} (h : t.Kept t') : t.Keeps t' where
  hands k _ hk := (h.hands k).trans hk
  mint := h.mint

end Tokens

/-- A send opens no account either. -/
theorem Send.kept_takeTokens {env : Externals} {n : Node} {acc : Accounts}
    {epoch sent received fee tvlLd : UInt64} {tokens : Tokens}
    (h : takeTokens env n acc epoch sent received fee = .ok (tvlLd, tokens)) :
    n.tokens.Kept tokens := by
  unfold takeTokens at h
  split at h
  · simp only [Except.bind_eq_ok, Except.okOr_eq_ok, Except.pure_eq_ok, Prod.mk.injEq] at h
    obtain ⟨-, -, moved, htransfer, -, rfl⟩ := h
    exact env.tokenProgram.kept_transferChecked htransfer
  · simp only [Except.bind_eq_ok, Except.okOr_eq_ok] at h
    obtain ⟨burnLd, -, burnt, hburn, h⟩ := h
    have hburnt := env.tokenProgram.kept_burn hburn
    split at h
    · simp only [Except.bind_eq_ok, Except.okOr_eq_ok, Except.pure_eq_ok, Prod.mk.injEq] at h
      obtain ⟨moved, htransfer, -, rfl⟩ := h
      exact hburnt.trans (env.tokenProgram.kept_transferChecked htransfer)
    · simp only [Except.pure_eq_ok, Prod.mk.injEq] at h
      obtain ⟨-, rfl⟩ := h
      exact hburnt

theorem LzReceive.DestOpened.keeps {n : Node} {acc : Accounts} {tokens : Tokens}
    (h : DestOpened n acc tokens) : n.tokens.Keeps tokens where
  hands k authority hk := by
    rw [h.hands]
    split
    · next hdest =>
      rw [hdest] at hk
      rw [h.owner authority hk]
    · exact hk
  mint := by rw [h.mint]

theorem LzReceive.kept_releaseTokens {env : Externals} {n : Node} {tokens tokens' : Tokens}
    {acc : Accounts} {clock : Clock} {amountLd tvlLd received : UInt64}
    (h : releaseTokens env n tokens acc clock amountLd = .ok (tvlLd, tokens', received)) :
    tokens.Kept tokens' := by
  unfold releaseTokens at h
  split at h
  · simp only [Except.bind_eq_ok, Except.okOr_eq_ok, Except.pure_eq_ok, Prod.mk.injEq] at h
    obtain ⟨-, -, moved, htransfer, -, -, -, rfl, -⟩ := h
    exact env.tokenProgram.kept_transferChecked htransfer
  · split at h
    · simp only [Except.bind_eq_ok, Except.okOr_eq_ok, Except.pure_eq_ok, Prod.mk.injEq] at h
      obtain ⟨moved, hmint, -, rfl, -⟩ := h
      exact env.tokenProgram.kept_mintTo hmint
    · contradiction

theorem Send.kept_prepare {env : Externals} {clock : Clock} {n : Node} {acc : Accounts}
    {remaining : List LzAccount} {params : SendParams} {out : Outcome}
    (h : prepare env clock n acc remaining params = .ok out) :
    n.tokens.Kept out.node.tokens := by
  simp only [prepare, Except.bind_eq_ok, Except.pure_eq_ok] at h
  obtain ⟨peer, -, -, -, amounts, -, -, -, outbound, -, inbound, -, ⟨tvlLd, tokens⟩, htake, -, -,
    -, -, -, -, options, -, rfl⟩ := h
  exact kept_takeTokens htake

theorem LzReceive.keeps_deliver {env : Externals} {clock : Clock} {endpoint : Endpoint} {n : Node}
    {acc : Accounts} {remaining : List LzAccount} {params : LzReceiveParams} {out : Outcome}
    (h : deliver env clock endpoint n acc remaining params = .ok out) :
    n.tokens.Keeps out.node.tokens := by
  simp only [deliver, Except.bind_eq_ok, Except.pure_eq_ok] at h
  obtain ⟨⟨peer, opened⟩, hacc, -, -, -, -, -, -, amountSd, -, amountLd, -, inbound, -, outbound, -,
    ⟨tvlLd, tokens, received⟩, hrelease, rfl⟩ := h
  simp only [tryAccounts, Except.bind_eq_ok, Except.pure_eq_ok, Prod.mk.injEq] at hacc
  obtain ⟨-, -, -, -, opened', hopen, -, -, -, -, -, -, -, -, -, -, -, -, -, -, -, -, -, -, -, -, -,
    -, -, -, -, -, -, rfl⟩ := hacc
  exact (destOpened hopen).keeps.trans (kept_releaseTokens hrelease).keeps

/-- Only a delivery opens an account. -/
theorem Node.kept_exec {env : Externals} {n n' : Node} {tx : Tx} (h : n.exec env tx = .ok n')
    (hreceives : receives env (n, .tx tx) = none) : n.tokens.Kept n'.tokens := by
  obtain ⟨clock, endpoint, instruction⟩ := tx
  cases instruction with
  | send acc remaining params =>
      obtain ⟨r, hrun, hr⟩ := Except.bind_eq_ok.mp h
      rw [← Except.pure_eq_ok.mp hr]
      exact Send.kept_prepare (Send.apply_eq_ok hrun).1
  | lzReceive accounts params =>
      obtain ⟨out, hrun, -⟩ := Except.bind_eq_ok.mp h
      rw [receives, hrun] at hreceives
      contradiction
  | lzReceiveTypes | quoteOft | quoteSend =>
      obtain ⟨r, -, hr⟩ := Except.bind_eq_ok.mp h
      rw [← Except.pure_eq_ok.mp hr]
      exact .refl _
  | setOftConfig acc remaining params =>
      rw [(SetOFTConfig.configured h).node]
      exact .refl _
  | setPeerConfig acc params =>
      obtain ⟨peer, hp⟩ := SetPeerConfig.peerSet h
      rw [hp.node]
      exact .refl _
  | setPause acc params =>
      rw [(SetPause.apply_eq_ok h).2.2]
      exact .refl _
  | withdrawFee acc params =>
      have hrun : WithdrawFee.apply env clock n acc params = .ok n' := h
      simp only [WithdrawFee.apply, Except.bind_eq_ok, Except.okOr_eq_ok, Except.pure_eq_ok] at hrun
      obtain ⟨-, -, -, -, -, -, moved, htransfer, rfl⟩ := hrun
      exact env.tokenProgram.kept_transferChecked htransfer

/-- A transaction closes no account, changes no account's hands, and leaves
the mint as it is but for the supply. -/
theorem Node.keeps_exec {env : Externals} {n n' : Node} {tx : Tx} (h : n.exec env tx = .ok n') :
    n.tokens.Keeps n'.tokens := by
  cases hreceives : receives env (n, .tx tx) with
  | none => exact (kept_exec h hreceives).keeps
  | some r =>
      obtain ⟨clock, endpoint, accounts, htx, hrun⟩ := receives_eq_some hreceives
      obtain rfl := Event.tx.inj htx
      obtain ⟨acc, remaining, -, hdeliver⟩ := LzReceive.apply_eq_ok hrun
      obtain ⟨out, hrun', hout⟩ := Except.bind_eq_ok.mp h
      obtain rfl := Except.ok.inj (hrun.symm.trans hrun')
      rw [← Except.pure_eq_ok.mp hout]
      exact LzReceive.keeps_deliver hdeliver

/-! ## how a balance changes -/

namespace Tokens

/-- What a transfer of `a` adds to the balance of `k`. -/
def flow (m : Mint) (epoch : UInt64) (source dest : Pubkey) (a : ℕ) (k : Pubkey) : ℤ :=
  if source = dest then 0 else if k = source then -a else if k = dest then m.net epoch a else 0

/-- A transfer of nothing adds nothing. -/
theorem flow_zero (m : Mint) (epoch : UInt64) (source dest k : Pubkey) :
    flow m epoch source dest 0 k = 0 := by
  have hnet := m.net_le epoch 0
  unfold flow
  split
  · rfl
  · split
    · rfl
    · split
      · omega
      · rfl

theorem Transferred.balance {t t' : Tokens} {epoch : UInt64} {source dest : Pubkey} {a : ℕ}
    (h : t.Transferred t' epoch source dest a) (k : Pubkey) :
    (t'.balance k : ℤ) = t.balance k + flow t.mint epoch source dest a k := by
  unfold flow
  split
  · next heq => rw [h.balance_of_self heq, add_zero]
  · next hne =>
    split
    · next hk =>
      have hdebit := h.debited hne
      rw [hk]
      omega
    · next hks =>
      split
      · next hk =>
        have hcredit := h.credited hne
        rw [hk]
        omega
      · next hkd => rw [Tokens.balance, h.other k hks hkd, Tokens.balance, add_zero]

theorem Minted.balance {t t' : Tokens} {dest : Pubkey} {a : ℕ} (h : t.Minted t' dest a)
    (k : Pubkey) : (t'.balance k : ℤ) = t.balance k + if k = dest then (a : ℤ) else 0 := by
  split
  · next hk =>
    have hcredit := h.credited
    rw [hk]
    omega
  · next hk => rw [Tokens.balance, h.other k hk, Tokens.balance, add_zero]

theorem Burned.balance {t t' : Tokens} {source : Pubkey} {a : ℕ} (h : t.Burned t' source a)
    (k : Pubkey) : (t'.balance k : ℤ) = t.balance k + if k = source then -(a : ℤ) else 0 := by
  split
  · next hk =>
    have hdebit := h.debited
    rw [hk]
    omega
  · next hk => rw [Tokens.balance, h.other k hk, Tokens.balance, add_zero]

end Tokens

/-- Both branches of a send take the amount sent from the source and leave the
escrow its part. -/
theorem Send.Taken.balance {n : Node} {acc : Accounts} {epoch sent received fee tvlLd : UInt64}
    {tokens : Tokens} (h : Taken n acc epoch sent received fee tvlLd tokens)
    (hescrow : acc.tokenEscrow.pubkey = n.store.tokenEscrow)
    (hapart : acc.tokenSource.pubkey ≠ n.store.tokenEscrow) (k : Pubkey) :
    (tokens.balance k : ℤ) = n.tokens.balance k +
      if k = acc.tokenSource.pubkey then -(sent.toNat : ℤ)
      else if k = n.store.tokenEscrow then (n.tokens.mint.net epoch
        (if n.store.oftType = .adapter then sent.toNat else fee.toNat) : ℤ)
      else 0 := by
  cases htype : n.store.oftType with
  | adapter =>
      obtain ⟨-, hmoved⟩ := h.adapter htype
      rw [hmoved.balance k, hescrow, Tokens.flow, if_neg hapart, if_pos rfl]
  | native =>
      obtain ⟨-, burnt, burnLd, hsum, hburned, hfee⟩ := h.native htype
      have hnet : ∀ a, burnt.mint.net epoch a = n.tokens.mint.net epoch a := by
        intro a
        rw [Mint.net, hburned.fees, Mint.net]
      have hmoved : (tokens.balance k : ℤ) = burnt.balance k +
          Tokens.flow burnt.mint epoch acc.tokenSource.pubkey n.store.tokenEscrow fee.toNat k := by
        rcases hfee with ⟨hzero, hsame⟩ | hmoved
        · rw [hsame, hzero, Tokens.flow_zero, add_zero]
        · rw [hescrow] at hmoved
          exact hmoved.balance k
      have htype' : ¬ OFTType.native = OFTType.adapter := by decide
      rw [hmoved, hburned.balance k, Tokens.flow, if_neg hapart, if_neg htype', hnet]
      split <;> omega

/-- What a release adds to a balance: an adapter moves the amount out of the
escrow, and a native store mints it. -/
theorem LzReceive.Released.balance {n : Node} {opened tokens : Tokens} {acc : Accounts}
    {clock : Clock} {amountLd tvlLd received : UInt64}
    (h : Released n opened acc clock amountLd tvlLd tokens received)
    (hopened : n.tokens.Opened opened) (hescrow : acc.tokenEscrow.pubkey = n.store.tokenEscrow)
    (k : Pubkey) :
    (tokens.balance k : ℤ) = n.tokens.balance k + if n.store.oftType = .adapter then
      Tokens.flow n.tokens.mint clock.epoch n.store.tokenEscrow acc.tokenDest.pubkey
        amountLd.toNat k
      else if k = acc.tokenDest.pubkey then (amountLd.toNat : ℤ) else 0 := by
  rw [← hopened.balance k]
  cases htype : n.store.oftType with
  | adapter =>
      obtain ⟨-, hmoved, -⟩ := h.adapter htype
      rw [if_pos rfl, hmoved.balance k, hescrow, hopened.mint]
  | native =>
      have htype' : ¬ OFTType.native = OFTType.adapter := by decide
      rw [if_neg htype', (h.native htype).2.1.balance k]

namespace Node

variable (env : Externals)

/-- The ways a transaction changes the balance of account `k` by some
amount. -/
inductive Change (n : Node) (tx : Tx) (k : Pubkey) : ℤ → Prop
  | unchanged : Change n tx k 0
  /-- a send takes what it reports from its source, whose authority signs -/
  | sent {params : SendParams} {out : Send.Outcome} {receipt : MessagingReceipt}
      {account : TokenAccount} (run : sends env (n, .tx tx) = some (params, out, receipt))
      (found : n.tokens.accounts k = some account) (signed : tx.SignedBy account.authority)
      (asked : out.receipt.amountSentLd ≤ params.amountLd) :
      Change n tx k (-out.receipt.amountSentLd.toNat)
  /-- a send puts into the escrow what is left of the amount it locks or of
  the fee -/
  | escrowed {params : SendParams} {out : Send.Outcome} {receipt : MessagingReceipt}
      (run : sends env (n, .tx tx) = some (params, out, receipt))
      (escrow : k = n.store.tokenEscrow) :
      Change n tx k (n.tokens.mint.net tx.clock.epoch
        (if n.store.oftType = .adapter then out.receipt.amountSentLd.toNat else out.oftFeeLd.toNat))
  /-- a delivery pays the recipient that its message names what it reports -/
  | received {params : LzReceiveParams} {out : LzReceive.Outcome}
      (run : receives env (n, .tx tx) = some (params, out))
      (recipient : MsgCodec.sendTo params.message = some out.event.toAddress)
      (dest : k = env.associatedTokenAddress out.event.toAddress n.store.tokenMint
        n.tokens.mint.tokenProgram) :
      Change n tx k out.event.amountReceivedLd.toNat
  /-- an adapter takes the amount of the message from the escrow -/
  | unlocked {params : LzReceiveParams} {out : LzReceive.Outcome} {amountSd : UInt64}
      (run : receives env (n, .tx tx) = some (params, out)) (escrow : k = n.store.tokenEscrow)
      (adapter : n.store.oftType = .adapter)
      (decoded : MsgCodec.amountSd params.message = some amountSd) :
      Change n tx k (-(amountSd.toNat * n.store.ld2sdRate.toNat : ℕ))
  /-- the admin withdraws from the escrow what it holds above the value
  locked -/
  | withdrawn {acc : WithdrawFee.Accounts} {params : WithdrawFeeParams}
      (run : withdraws env (n, .tx tx) = some (acc, params)) (escrow : k = n.store.tokenEscrow)
      (signed : tx.SignedBy n.store.admin)
      (covered : n.store.tvlLd.toNat + params.feeLd.toNat ≤
        n.tokens.balance n.store.tokenEscrow) :
      Change n tx k (-params.feeLd.toNat)
  | collected {acc : WithdrawFee.Accounts} {params : WithdrawFeeParams}
      (run : withdraws env (n, .tx tx) = some (acc, params)) (dest : k = acc.tokenDest.pubkey) :
      Change n tx k (n.tokens.mint.net tx.clock.epoch params.feeLd.toNat)

variable {env}

/-- The token account a send takes from is its signer's, and the escrow the
store's. -/
theorem hands_of_sends {n : Node} {clock : Clock} {endpoint : Endpoint} {acc : Send.Accounts}
    {remaining : List LzAccount} {params : SendParams} {r : SendParams × Send.Outcome ×
      MessagingReceipt}
    (h : sends env (n, .tx ⟨clock, endpoint, .send acc remaining params⟩) = some r) :
    n.tokens.hands acc.tokenSource.pubkey = some acc.signer.pubkey ∧
      n.tokens.hands n.store.tokenEscrow = some n.key := by
  obtain ⟨params', out, receipt⟩ := r
  obtain ⟨clock', endpoint', acc', remaining', event, hev, hrun⟩ := sends_eq_some h
  simp only [Event.tx.injEq, Tx.mk.injEq, Instruction.send.injEq] at hev
  obtain ⟨rfl, rfl, rfl, rfl, rfl⟩ := hev
  obtain ⟨peer, hacc, -⟩ := Except.bind_eq_ok.mp (Send.apply_eq_ok hrun).1
  have hconstrained := Send.constrained hacc
  refine ⟨hconstrained.source, ?_⟩
  rw [← hconstrained.escrow.1]
  exact hconstrained.escrow.2

/-- Every change of a balance is one of these, if the store's key signs no
send. -/
theorem Stepped.change {n n' : Node} {tx : Tx} (h : Stepped env n (.tx tx) n')
    (hkey : (sends env (n, .tx tx)).isSome → ¬ tx.SignedBy n.key) (k : Pubkey) :
    Change env n tx k ((n'.tokens.balance k : ℤ) - n.tokens.balance k) := by
  cases h with
  | send run h =>
      rename_i clock endpoint acc remaining params out receipt peer outbound inbound
      have hsigner : acc.signer.pubkey ≠ n.key :=
        fun heq => hkey (Option.isSome_of_eq_some run) ⟨acc.signer, rfl, heq, h.signed⟩
      obtain ⟨hsource, hescrow⟩ := hands_of_sends run
      have hapart : acc.tokenSource.pubkey ≠ n.store.tokenEscrow := by
        intro heq
        rw [heq, hescrow, Option.some.injEq] at hsource
        exact hsigner hsource.symm
      obtain ⟨account, hfound, hauthority⟩ := Option.map_eq_some_iff.mp hsource
      have hcharged := charged h.amounts
      have hasked := UInt64.le_iff_toNat_le.mpr hcharged.sent_le
      have hsigned : Tx.SignedBy ⟨clock, endpoint, .send acc remaining params⟩
          account.authority := ⟨acc.signer, rfl, hauthority.symm, h.signed⟩
      have hchange := h.taken.balance h.escrow hapart k
      rw [hchange, add_sub_cancel_left]
      split
      · next hk => exact .sent run (hk ▸ hfound) hsigned hasked
      · split
        · next hk => exact .escrowed run hk
        · exact .unchanged
  | lzReceive run list h =>
      rename_i clock endpoint accounts params out acc remaining peer outbound inbound opened
        amountSd amountLd
      obtain ⟨hrecipient, hdest⟩ : MsgCodec.sendTo params.message = some out.event.toAddress ∧
          acc.tokenDest.pubkey = env.associatedTokenAddress out.event.toAddress n.store.tokenMint
            n.tokens.mint.tokenProgram := by
        obtain ⟨clock', endpoint', accounts', hev, happly⟩ := receives_eq_some run
        simp only [Event.tx.injEq, Tx.mk.injEq, Instruction.lzReceive.injEq] at hev
        obtain ⟨rfl, rfl, rfl, -⟩ := hev
        obtain ⟨acc', remaining', hlist, hdeliver⟩ := LzReceive.apply_eq_ok happly
        obtain ⟨rfl, rfl⟩ := Prod.mk.inj (Option.some.inj (hlist.symm.trans list))
        obtain ⟨⟨peer', tokens⟩, hacc, -⟩ := Except.bind_eq_ok.mp hdeliver
        obtain ⟨sendTo, hto, hdest⟩ := (LzReceive.constrained hacc).dest
        have hread := LzReceive.sendTo_of_tryAccounts hacc
        rw [h.event]
        exact ⟨hread, by rw [hdest, Option.some.inj (hto.symm.trans hread)]⟩
      rw [h.released.balance h.opens h.escrow k, add_sub_cancel_left]
      cases htype : n.store.oftType with
      | adapter =>
          obtain ⟨-, -, hpost⟩ := h.released.adapter htype
          rw [getPostFeeAmountLd_eq_ok, h.opens.mint] at hpost
          rw [if_pos rfl, Tokens.flow]
          split
          · exact .unchanged
          · split
            · next hk =>
              rw [← h.scaled]
              exact .unlocked run hk htype h.decoded
            · split
              · next hk =>
                rw [hpost]
                exact .received run hrecipient (hk.trans hdest)
              · exact .unchanged
      | native =>
          obtain ⟨-, -, hreceived⟩ := h.released.native htype
          have htype' : ¬ OFTType.native = OFTType.adapter := by decide
          rw [if_neg htype', ← hreceived]
          split
          · next hk => exact .received run hrecipient (hk.trans hdest)
          · exact .unchanged
  | setOftConfig h => rw [h.node, sub_self]; exact .unchanged
  | setPeerConfig run h => rw [h.node, setPeer, sub_self]; exact .unchanged
  | setPause => rw [sub_self]; exact .unchanged
  | withdrawFee run h =>
      rename_i clock endpoint acc params
      have hbalance := h.moved.balance k
      rw [Tokens.flow] at hbalance
      split at hbalance
      · rw [hbalance, add_zero, sub_self]
        exact .unchanged
      · split at hbalance
        · next hk =>
          rw [hbalance, add_sub_cancel_left]
          exact .withdrawn run hk ⟨acc.admin, rfl, h.admin.symm, h.signed⟩ h.covered
        · split at hbalance
          · next hk =>
            rw [hbalance, add_sub_cancel_left]
            exact .collected run hk
          · rw [hbalance, add_zero, sub_self]
            exact .unchanged
  | idle h => rw [sub_self]; exact .unchanged

/-! ## whole runs -/

/-- A step that `authority` does not sign, and that leaves account `k` in its
hands, with no less in it, where it is not the program's. -/
def Spares (k authority : Pubkey) : Node × Event → Prop
  | (_, .tx tx) => ¬ tx.SignedBy authority
  | (n, .external tokens) => n.Permits tokens →
      (tokens.accounts k).map (·.authority) = (n.tokens.accounts k).map (·.authority) ∧
        n.tokens.balance k ≤ tokens.balance k

/-- Of an account that is not the escrow, a transaction takes nothing unless
its authority signs. -/
theorem Change.nonneg {n : Node} {tx : Tx} {k authority : Pubkey} {δ : ℤ}
    (h : Change env n tx k δ) (hescrow : k ≠ n.store.tokenEscrow)
    (hauthority : (n.tokens.accounts k).map (·.authority) = some authority)
    (hsigned : ¬ tx.SignedBy authority) : 0 ≤ δ := by
  cases h with
  | unchanged => exact le_rfl
  | sent run found signed asked =>
      rw [found] at hauthority
      rw [← Option.some.inj hauthority] at hsigned
      exact absurd signed hsigned
  | escrowed run escrow => exact Int.natCast_nonneg _
  | received run recipient dest => exact Int.natCast_nonneg _
  | unlocked run escrow => exact absurd escrow hescrow
  | withdrawn run escrow => exact absurd escrow hescrow
  | collected run dest => exact Int.natCast_nonneg _

/-- The account stays in its authority's hands and holds `b` at least. -/
structure Held (k authority : Pubkey) (b : ℕ) (n : Node) : Prop where
  authority : (n.tokens.accounts k).map (·.authority) = some authority
  balance : b ≤ n.tokens.balance k

theorem Held.step {n : Node} {ev : Event} {k authority : Pubkey} {b : ℕ}
    (h : Held k authority b n) (hescrow : k ≠ n.store.tokenEscrow)
    (hkey : ∀ tx, ev = .tx tx → ¬ tx.SignedBy n.key) (hspares : Spares k authority (n, ev)) :
    Held k authority b (n.step env ev) := by
  refine step_rule env h ?_ ?_
  · rintro tx n' rfl hrun
    have hchange := (stepped_of_exec hrun).change (fun _ => hkey tx rfl) k
    have hgrows := hchange.nonneg hescrow h.authority hspares
    have hbalance := h.balance
    exact ⟨(keeps_exec hrun).hands k authority h.authority, by omega⟩
  · rintro tokens rfl hpermits
    obtain ⟨hauthority, hbalance⟩ := hspares hpermits
    exact ⟨hauthority.trans h.authority, h.balance.trans hbalance⟩

/-- Custody: the store's key signs for nobody outside the program, so every
change a transaction makes to any account of the mint is one that `Change`
lists.  An account other than the escrow therefore keeps its authority, and
what it holds never falls, through any run in which that authority signs
nothing. -/
theorem custody (env : Externals) (n₀ : Node) (events : List Event)
    (hkey : ∀ tx, .tx tx ∈ events → ¬ tx.SignedBy n₀.key) :
    (∀ n tx, (n, .tx tx) ∈ Run.trace (step env) n₀ events → ∀ k,
      Change env n tx k (((n.step env (.tx tx)).tokens.balance k : ℤ) - n.tokens.balance k)) ∧
    ∀ k authority, k ≠ n₀.store.tokenEscrow →
      (n₀.tokens.accounts k).map (·.authority) = some authority →
      (∀ e ∈ Run.trace (step env) n₀ events, Spares k authority e) →
      Held k authority (n₀.tokens.balance k) (Run.final (step env) n₀ events) := by
  have hkeys : ∀ e ∈ Run.trace (step env) n₀ events, ∀ tx, e.2 = .tx tx →
      ¬ tx.SignedBy e.1.key := by
    intro e he tx htx
    obtain ⟨before, after, hevents, hstate⟩ := Run.mem_trace (step env) he
    rw [hstate, key_final]
    exact hkey tx (by rw [hevents, ← htx]; simp)
  constructor
  · intro n tx hmem k
    exact (stepped env n (.tx tx)).change (fun _ => hkeys _ hmem tx rfl) k
  · intro k authority hescrow hauthority hspares
    have hstep : ∀ (n : Node) (ev : Event),
        Held k authority (n₀.tokens.balance k) n ∧ n.store.origin = n₀.store.origin →
        (Spares k authority (n, ev) ∧ ∀ tx, ev = .tx tx → ¬ tx.SignedBy n.key) →
        Held k authority (n₀.tokens.balance k) (n.step env ev) ∧
          (n.step env ev).store.origin = n₀.store.origin := by
      intro n ev h hev
      have hsame : n.store.tokenEscrow = n₀.store.tokenEscrow := congrArg (·.2.2.2.1) h.2
      exact ⟨h.1.step (hsame ▸ hescrow) hev.2 hev.1, (stepped env n ev).origin.trans h.2⟩
    exact (Run.final_inv_of_trace (Q := fun e => Spares k authority e ∧
      ∀ tx, e.2 = .tx tx → ¬ tx.SignedBy e.1.key) hstep ⟨⟨hauthority, le_rfl⟩, rfl⟩
      fun e he => ⟨hspares e he, hkeys e he⟩).1

/-- A delivery to key 22 while key 20 signs nothing. -/
def custodyTokens : Tokens := .sample 5000000 sampleKey none

def custodyRun : List Event := [
  .sample 0 (.sampleSetPeer 30101 (.peerAddress sampleKey)),
  .sample 0 (.sampleReceive (sample .native custodyTokens) 30101 sampleKey 2000)]

theorem custody_example :
    let m := Run.final (step .sample) (sample .native custodyTokens) custodyRun
    m.tokens.mint.supply = 7000000 ∧
      Held (.ofByte 21) (.ofByte 20) ((sample .native custodyTokens).tokens.balance (.ofByte 21))
        m := by
  have hsigned : ∀ k : Pubkey, k ≠ .ofByte 13 → k ≠ .default → ∀ tx, .tx tx ∈ custodyRun →
      ¬ tx.SignedBy k := by
    rintro k hadmin hpayer tx hmem ⟨a, ha, rfl, -⟩
    simp only [custodyRun, Event.sample, List.mem_cons, Event.tx.injEq, List.not_mem_nil,
      or_false] at hmem
    rcases hmem with rfl | rfl
    · rw [← Option.some.inj ha] at hadmin
      exact hadmin rfl
    · have hfirst : (Instruction.sampleReceive (sample .native custodyTokens) 30101 sampleKey
          2000).signer = some (.signer .default) := by decide +kernel
      rw [hfirst] at ha
      rw [← Option.some.inj ha] at hpayer
      exact hpayer rfl
  have hcustody := custody .sample (sample .native custodyTokens) custodyRun
    (hsigned _ (by decide) (by decide))
  refine ⟨by decide +kernel, hcustody.2 (.ofByte 21) (.ofByte 20) (by decide) (by decide) ?_⟩
  intro e he
  obtain ⟨before, after, hrun, -⟩ := Run.mem_trace _ he
  have hmem : e.2 ∈ custodyRun := by rw [hrun]; simp
  obtain ⟨n, ev⟩ := e
  cases ev with
  | tx tx => exact hsigned _ (by decide) (by decide) tx hmem
  | external tokens => simp [custodyRun, Event.sample] at hmem

end Node

end CrossChain
