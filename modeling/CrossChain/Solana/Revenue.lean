import CrossChain.Solana.Escrow

/-!
# CrossChain.Solana.Revenue

What the admin can withdraw.

The fees of both kinds of store end up in the escrow: an adapter locks them
with the tokens of the transfer, a native store moves them there instead of
burning them.  `withdraw_fee` knows none of this: it compares an amount with
`token_escrow.amount - tvl_ld`.  The ledger of the escrow says what that is,
and that nothing of the program's own stands in the admin's way but too large
an amount.
-/

namespace CrossChain

/-! ## when a withdrawal succeeds -/

namespace WithdrawFee

variable {env : Externals} {clock : Clock} {n : Node} {acc : Accounts} {params : WithdrawFeeParams}

/-- What the constraints establish. -/
structure Constrained (n : Node) (acc : Accounts) (tokenEscrow : TokenAccount) : Prop where
  found : n.tokens.accounts n.store.tokenEscrow = some tokenEscrow
  store : acc.oftStore.pubkey = n.key
  escrow : acc.tokenEscrow.pubkey = n.store.tokenEscrow

theorem constrained {tokenEscrow : TokenAccount}
    (h : tryAccounts env n acc = .ok tokenEscrow) : Constrained n acc tokenEscrow := by
  simp only [tryAccounts, Except.bind_eq_ok, Except.require_eq_ok, Except.okOr_eq_ok,
    Except.pure_eq_ok] at h
  obtain ⟨-, -, escrow, hfound, -, hstore, -, -, -, -, -, hescrow, -, -, -, -, rfl⟩ := h
  have haddress : acc.tokenEscrow.pubkey = n.store.tokenEscrow := hescrow.1.1
  exact ⟨haddress ▸ hfound, hstore.1, haddress⟩

/-- `token_escrow.amount - tvl_ld` is the surplus. -/
theorem Constrained.available {tokenEscrow : TokenAccount} (h : Constrained n acc tokenEscrow)
    (hbacked : n.Backed) :
    ∃ available, tokenEscrow.amount.checkedSub n.store.tvlLd = some available ∧
      available.toNat = n.surplus := by
  have hbalance := Tokens.balance_of_accounts h.found
  rw [Node.Backed] at hbacked
  have hlt := tokenEscrow.amount.toNat_lt_two_pow
  obtain ⟨available, havailable⟩ := UInt64.exists_toNat_eq (n := n.surplus) (by
    rw [Node.surplus]
    omega)
  refine ⟨available, ?_, havailable.symm⟩
  rw [UInt64.checkedSub_eq_some, ← havailable, Node.surplus]
  omega

/-- The transfer that a withdrawal asks the token program for. -/
def payOut (env : Externals) (clock : Clock) (n : Node) (acc : Accounts)
    (params : WithdrawFeeParams) : Option Tokens :=
  env.tokenProgram.transferChecked n.tokens clock.epoch n.store.tokenEscrow acc.tokenDest.pubkey
    n.key params.feeLd n.tokens.mint.decimals

/-- Once the constraints pass, an amount is refused for being more than the
surplus, or by the token program, and for nothing else. -/
theorem isOk_apply (hbacked : n.Backed) (hacc : (tryAccounts env n acc).isOk) :
    (apply env clock n acc params).isOk ↔
      params.feeLd.toNat ≤ n.surplus ∧ (payOut env clock n acc params).isSome := by
  obtain ⟨escrow, htry⟩ := Except.isOk_iff.mp hacc
  have hc := constrained htry
  obtain ⟨available, hsub, havailable⟩ := hc.available hbacked
  simp only [apply, htry, hsub, Except.isOk_bind, Except.ok.injEq, exists_eq_left', orAbort_eq_ok,
    Except.okOr_eq_ok, Option.some.injEq, Except.require_eq_ok, hc.store, hc.escrow,
    UInt64.le_iff_toNat_le, havailable, payOut, Option.isSome_iff_exists]
  constructor
  · rintro ⟨-, hfee, tokens, hmoved, -⟩
    exact ⟨hfee, tokens, hmoved⟩
  · rintro ⟨hfee, tokens, hmoved⟩
    exact ⟨(), hfee, tokens, hmoved, rfl⟩

theorem apply_of_surplus_lt (hbacked : n.Backed) (hacc : (tryAccounts env n acc).isOk)
    (hlt : n.surplus < params.feeLd.toNat) :
    apply env clock n acc params = .error (.oft .invalidFee) := by
  obtain ⟨escrow, htry⟩ := Except.isOk_iff.mp hacc
  obtain ⟨available, hsub, havailable⟩ := (constrained htry).available hbacked
  have hrefused : require (params.feeLd ≤ available) (.oft .invalidFee : Error) =
      .error (.oft .invalidFee) := by
    refine if_neg ?_
    rw [UInt64.le_iff_toNat_le, havailable]
    omega
  rw [apply, htry]
  change (orAbort (escrow.amount.checkedSub n.store.tvlLd)).bind _ = _
  rw [hsub]
  change (require (params.feeLd ≤ available) (.oft .invalidFee : Error)).bind _ = _
  rw [hrefused]
  rfl

end WithdrawFee

/-! ## what is collected -/

namespace Node

variable (env : Externals)

/-- What the send of a step leaves in the escrow beyond the value locked:
`oft_fee_ld`, after the mint's own fee where a native store moves it. -/
def collectedOf : Node × Event → ℕ
  | (n, .tx tx) =>
      match sends env (n, .tx tx), n.store.oftType with
      | some (_, out, _), .adapter => out.oftFeeLd.toNat
      | some (_, out, _), .native => n.tokens.mint.net tx.clock.epoch out.oftFeeLd.toNat
      | none, _ => 0
  | _ => 0

variable {env}

theorem collectedOf_adapter {n : Node} (ev : Event) (h : n.store.oftType = .adapter) :
    collectedOf env (n, ev) = oftFeeOf env (n, ev) := by
  cases ev with
  | external tokens => rfl
  | tx tx =>
      rw [collectedOf, oftFeeOf, h]
      cases sends env (n, .tx tx) with
      | none => rfl
      | some r => rfl

theorem collectedOf_eq_zero {n : Node} {ev : Event} (h : sends env (n, ev) = none) :
    collectedOf env (n, ev) = 0 := by
  cases ev with
  | external tokens => rfl
  | tx tx => rw [collectedOf, h]

/-- One step of a native store: `Stepped.surplus` for the other type. -/
theorem Stepped.surplus_native {n n' : Node} {ev : Event} (h : Stepped env n ev n')
    (hnative : n.store.oftType = .native) (hapart : KeepsApart env n.store.tokenEscrow ev)
    (hbacked : n.Backed) :
    n'.Backed ∧ n'.surplus + withdrawnOf env (n, ev) =
      n.surplus + (collectedOf env (n, ev) + depositOf (n, ev)) := by
  unfold Backed Node.surplus at *
  cases h with
  | @send clock endpoint acc remaining params out receipt peer outbound inbound run h =>
      obtain ⟨htvl, burnt, burnLd, -, hburned, hfee⟩ := h.taken.native hnative
      have hescrow : out.node.store.tokenEscrow = n.store.tokenEscrow := by rw [h.node]; rfl
      have hburnt : burnt.balance n.store.tokenEscrow = n.tokens.balance n.store.tokenEscrow := by
        rw [Tokens.balance, hburned.other _ (Ne.symm hapart), Tokens.balance]
      have hmint : burnt.mint.net clock.epoch out.oftFeeLd.toNat =
          n.tokens.mint.net clock.epoch out.oftFeeLd.toNat := by
        rw [Mint.net, hburned.fees, Mint.net]
      have hcollected : out.node.tokens.balance n.store.tokenEscrow =
          n.tokens.balance n.store.tokenEscrow +
            n.tokens.mint.net clock.epoch out.oftFeeLd.toNat := by
        rcases hfee with ⟨hzero, htokens⟩ | hmoved
        · have hnet := n.tokens.mint.net_le clock.epoch out.oftFeeLd.toNat
          rw [htokens, hburnt]
          omega
        · rw [h.escrow] at hmoved
          rw [hmoved.credited hapart, hburnt, hmint]
      rw [collectedOf, run, hnative, hescrow, htvl]
      simp only [withdrawnOf, withdraws, depositOf]
      omega
  | lzReceive run list h =>
      rename_i out acc remaining peer outbound inbound opened amountSd amountLd
      obtain ⟨htvl, hminted, -⟩ := h.released.native hnative
      have hopen := h.opens.balance n.store.tokenEscrow
      have hother : out.node.tokens.balance n.store.tokenEscrow =
          opened.balance n.store.tokenEscrow := by
        rw [Tokens.balance, hminted.other _ (hapart acc remaining list).symm, Tokens.balance]
      have hescrow : out.node.store.tokenEscrow = n.store.tokenEscrow := by rw [h.node]; rfl
      rw [hescrow, htvl]
      simp only [withdrawnOf, withdraws, collectedOf, sends, depositOf]
      omega
  | withdrawFee run h =>
      rename_i clock endpoint acc params
      have hcovered := h.covered
      have hstore : n'.store = n.store := by rw [h.node]
      rw [withdrawnOf_eq run, hstore]
      simp only [collectedOf, sends, depositOf]
      split
      · next hself =>
        rw [h.moved.balance_of_self hself.symm]
        omega
      · next hother =>
        have hdebit := h.moved.debited (Ne.symm hother)
        omega
  | external h =>
      rename_i tokens
      have hle := h.2
      simp only [withdrawnOf, withdraws, collectedOf, depositOf, if_pos h]
      omega
  | setOftConfig h =>
      have htokens : n'.tokens = n.tokens := by rw [h.node]
      have hescrow : n'.store.tokenEscrow = n.store.tokenEscrow :=
        congrArg (fun o => o.2.2.2.1) h.origin
      rw [htokens, hescrow, h.tvlLd]
      exact ⟨hbacked, rfl⟩
  | setPeerConfig run h =>
      rw [h.node]
      exact ⟨hbacked, rfl⟩
  | setPause => exact ⟨hbacked, rfl⟩
  | idle h =>
      have hdeposit : depositOf (n, ev) = 0 := by
        cases ev with
        | tx => rfl
        | external tokens => exact if_neg (h.external tokens rfl)
      rw [collectedOf_eq_zero h.sends, hdeposit, withdrawnOf, h.withdraws]
      exact ⟨hbacked, rfl⟩

/-- One step of either store. -/
theorem Stepped.collects {n n' : Node} {ev : Event} (h : Stepped env n ev n')
    (hapart : KeepsApart env n.store.tokenEscrow ev) (hbacked : n.Backed) :
    n'.Backed ∧ n'.surplus + withdrawnOf env (n, ev) =
      n.surplus + (collectedOf env (n, ev) + depositOf (n, ev)) := by
  cases htype : n.store.oftType with
  | adapter =>
      rw [collectedOf_adapter ev htype]
      exact h.surplus htype hapart hbacked
  | native => exact h.surplus_native htype hapart hbacked

/-! ## whole runs -/

/-- The fees can be withdrawn: in every state a run from `init_oft` reaches,
the escrow holds the value locked, what the sends left in it and what others
deposited, less what was withdrawn.  Any part of the difference is the admin's
to withdraw, if the token program makes the transfer, and no more than that. -/
theorem fees_withdrawable (env : Externals) (n₀ : Node) (hinit : InitOFT.Created env n₀)
    (events : List Event) (hapart : ∀ ev ∈ events, KeepsApart env n₀.store.tokenEscrow ev) :
    let steps := Run.trace (step env) n₀ events
    let m := Run.final (step env) n₀ events
    m.tokens.balance m.store.tokenEscrow + (steps.map (withdrawnOf env)).sum =
        m.store.tvlLd.toNat + (steps.map (collectedOf env)).sum + (steps.map depositOf).sum ∧
      ∀ (clock : Clock) (acc : WithdrawFee.Accounts) (params : WithdrawFeeParams),
        (WithdrawFee.tryAccounts env m acc).isOk →
        ((WithdrawFee.apply env clock m acc params).isOk ↔
          (steps.map (withdrawnOf env)).sum + params.feeLd.toNat ≤
              (steps.map (collectedOf env)).sum + (steps.map depositOf).sum ∧
            (WithdrawFee.payOut env clock m acc params).isSome) ∧
        ((steps.map (collectedOf env)).sum + (steps.map depositOf).sum <
            (steps.map (withdrawnOf env)).sum + params.feeLd.toNat →
          WithdrawFee.apply env clock m acc params = .error (.oft .invalidFee)) := by
  intro steps m
  have hcreated : n₀.tokens.balance n₀.store.tokenEscrow = 0 ∧ n₀.store.tvlLd = 0 := by
    obtain ⟨endpoint, tokens, acc, remaining, params, happly⟩ := hinit
    exact ⟨(InitOFT.initialized happly).escrow, (InitOFT.initialized happly).tvlLd⟩
  have hstart : n₀.Backed ∧ n₀.store.tokenEscrow = n₀.store.tokenEscrow := by
    rw [Backed, hcreated.2]
    exact ⟨Nat.zero_le _, rfl⟩
  have hkeeps : ∀ (n : Node) (ev : Event), n.Backed ∧ n.store.tokenEscrow = n₀.store.tokenEscrow →
      KeepsApart env n₀.store.tokenEscrow ev →
      (n.step env ev).Backed ∧ (n.step env ev).store.tokenEscrow = n₀.store.tokenEscrow := by
    intro n ev hn hev
    have hstep := stepped env n ev
    exact ⟨(hstep.collects (hn.2.symm ▸ hev) hn.1).1,
      (congrArg (·.2.2.2.1) hstep.origin).trans hn.2⟩
  have hledger : m.surplus + (steps.map (withdrawnOf env)).sum =
      n₀.surplus + (steps.map fun e => collectedOf env e + depositOf e).sum :=
    Run.ledger hkeeps (fun n ev hn hev =>
      ((stepped env n ev).collects (hn.2.symm ▸ hev) hn.1).2) hstart hapart
  have hbacked : m.Backed := (Run.final_inv hkeeps hstart hapart).1
  have hzero : n₀.surplus = 0 := by rw [Node.surplus, hcreated.1, Nat.zero_sub]
  rw [List.sum_map_add, hzero, zero_add] at hledger
  refine ⟨?_, fun clock acc params hacc => ⟨?_, fun hmore => ?_⟩⟩
  · rw [Node.surplus] at hledger
    rw [Backed] at hbacked
    omega
  · rw [WithdrawFee.isOk_apply hbacked hacc]
    refine and_congr_left fun _ => ?_
    omega
  · exact WithdrawFee.apply_of_surplus_lt hbacked hacc (by omega)

/-- Withdrawals from a native store that collected 20000 and paid out 7000. -/
def revenueStore : Node := sample .native (.sample 5000000 .default none)

def revenueAccounts : WithdrawFee.Accounts where
  admin := .signer (.ofByte 13)
  oftStore := .readonly sampleKey
  tokenMint := .readonly (.ofByte 11)
  tokenEscrow := .writable (.ofByte 12)
  tokenDest := .writable (.ofByte 21)
  tokenProgram := .readonly (.ofByte 3)

theorem fees_withdrawable_example :
    let m := Run.final (step .sample) revenueStore escrowRun
    (WithdrawFee.apply .sample ⟨0, 0⟩ m revenueAccounts ⟨13000⟩).isOk ∧
      WithdrawFee.apply .sample ⟨0, 0⟩ m revenueAccounts ⟨13001⟩ = .error (.oft .invalidFee) := by
  intro m
  have hinit : InitOFT.Created .sample revenueStore :=
    ⟨.sample, .sample 5000000 .default none, .sample, [], ⟨.native, .ofByte 13, 6, none⟩, rfl⟩
  have hapart : ∀ ev ∈ escrowRun, KeepsApart .sample (.ofByte 12) ev := by
    simp only [escrowRun, List.forall_mem_cons]
    refine ⟨trivial, trivial, ?_, trivial, by simp⟩
    show Pubkey.ofByte 21 ≠ Pubkey.ofByte 12
    decide
  have hcollected : ((Run.trace (step .sample) revenueStore escrowRun).map
      (collectedOf .sample)).sum = 20000 := by decide +kernel
  have hwithdrawn : ((Run.trace (step .sample) revenueStore escrowRun).map
      (withdrawnOf .sample)).sum = 7000 := by decide +kernel
  have hdeposited : ((Run.trace (step .sample) revenueStore escrowRun).map depositOf).sum = 0 := by
    decide +kernel
  have hpaid := (fees_withdrawable .sample _ hinit escrowRun hapart).2 ⟨0, 0⟩ revenueAccounts
  rw [hcollected, hwithdrawn, hdeposited] at hpaid
  exact ⟨(hpaid ⟨13000⟩ (by decide +kernel)).1.mpr ⟨by decide, by decide +kernel⟩,
    (hpaid ⟨13001⟩ (by decide +kernel)).2 (by decide)⟩

end Node

end CrossChain
