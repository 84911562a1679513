import Mathlib.Logic.Function.Basic
import CrossChain.Lib.CappedFee
import CrossChain.Solana.Basic

/-!
# CrossChain.Solana.Token

The token program as the OFT program relies on it: one mint, the token
accounts of that mint, and the instructions that open accounts and move
amounts between them.

Token-2022 is not part of the repository, nor are the programs that open
accounts.  `TokenProgram` is a parameter: what is relied on is what an
instruction that succeeds does to accounts and supply, as it is documented.
A transfer of `a` debits `a` and credits `a` less the mint's transfer fee of
the current epoch, a transfer from an account to itself moves nothing, and
`burn` and `mint_to` change a balance and the supply by exactly their amount.
When an instruction is refused is not said: accounts can be frozen, mints
paused and payers out of lamports.  A failed instruction changes nothing.
-/

namespace CrossChain

/-! ## transfer fees -/

/-- One base: `ONE_IN_BASIS_POINTS`. -/
def ONE_IN_BASIS_POINTS : ℕ := 10000

/-- `TransferFee`; the token program accepts no more than 10000 basis points. -/
structure TransferFee where
  maximumFee : UInt64
  transferFeeBasisPoints : UInt16
  bps_le : transferFeeBasisPoints.toNat ≤ ONE_IN_BASIS_POINTS
  deriving DecidableEq, Repr

namespace TransferFee

variable (f : TransferFee)

/-- The fee on `a`, as a number. -/
def charge (a : ℕ) : ℕ :=
  CappedFee.charge ONE_IN_BASIS_POINTS f.transferFeeBasisPoints.toNat f.maximumFee.toNat a

/-- What the fee leaves of `a`. -/
def net (a : ℕ) : ℕ :=
  CappedFee.net ONE_IN_BASIS_POINTS f.transferFeeBasisPoints.toNat f.maximumFee.toNat a

/-- The least amount that leaves `x`. -/
def gross (x : ℕ) : ℕ :=
  CappedFee.gross ONE_IN_BASIS_POINTS f.transferFeeBasisPoints.toNat f.maximumFee.toNat x

theorem base_pos : 0 < ONE_IN_BASIS_POINTS := by decide

theorem charge_le (a : ℕ) : f.charge a ≤ a := CappedFee.charge_le base_pos f.bps_le _ a

theorem net_add_charge (a : ℕ) : f.net a + f.charge a = a :=
  CappedFee.net_add_charge base_pos f.bps_le _ a

theorem net_gross (x : ℕ) : f.net (f.gross x) = x := CappedFee.net_gross base_pos f.bps_le _ x

theorem gross_le_iff (x z : ℕ) : f.gross x ≤ z ↔ x ≤ f.net z :=
  CappedFee.gross_le_iff base_pos f.bps_le _ x z

/-- `TransferFee::calculate_fee`. -/
def calculateFee (preFeeAmount : UInt64) : UInt64 := UInt64.ofNat (f.charge preFeeAmount.toNat)

theorem toNat_calculateFee (a : UInt64) : (f.calculateFee a).toNat = f.charge a.toNat := by
  have hle := f.charge_le a.toNat
  have hlt := a.toNat_lt_two_pow
  exact UInt64.toNat_ofNat_of_lt_two_pow (by omega)

/-- `TransferFee::calculate_post_fee_amount`. -/
def calculatePostFeeAmount (preFeeAmount : UInt64) : Option UInt64 :=
  preFeeAmount.checkedSub (f.calculateFee preFeeAmount)

theorem calculatePostFeeAmount_eq_some {a c : UInt64} :
    f.calculatePostFeeAmount a = some c ↔ f.net a.toNat = c.toNat := by
  have h := f.net_add_charge a.toNat
  rw [calculatePostFeeAmount, UInt64.checkedSub_eq_some, toNat_calculateFee]
  omega

end TransferFee

/-- `TransferFeeConfig`: the fee of each epoch. -/
structure TransferFeeConfig where
  getEpochFee : UInt64 → TransferFee

/-! ## the ledger of one mint -/

/-- `Mint`. -/
structure Mint where
  decimals : UInt8
  supply : UInt64
  mintAuthority : Option Pubkey
  transferFeeConfig : Option TransferFeeConfig
  /-- the owner of the account -/
  tokenProgram : Pubkey

namespace Mint

/-- What a transfer of `a` leaves with its fee. -/
def net (m : Mint) (epoch : UInt64) (a : ℕ) : ℕ :=
  match m.transferFeeConfig with
  | some c => (c.getEpochFee epoch).net a
  | none => a

/-- What a transfer of `a` withholds. -/
def withheld (m : Mint) (epoch : UInt64) (a : ℕ) : ℕ :=
  match m.transferFeeConfig with
  | some c => (c.getEpochFee epoch).charge a
  | none => 0

theorem net_add_withheld (m : Mint) (epoch : UInt64) (a : ℕ) :
    m.net epoch a + m.withheld epoch a = a := by
  unfold net withheld
  cases m.transferFeeConfig with
  | none => simp
  | some c => exact (c.getEpochFee epoch).net_add_charge a

theorem net_le (m : Mint) (epoch : UInt64) (a : ℕ) : m.net epoch a ≤ a := by
  have := m.net_add_withheld epoch a
  omega

/-- The least amount whose transfer leaves `x`. -/
def gross (m : Mint) (epoch : UInt64) (x : ℕ) : ℕ :=
  match m.transferFeeConfig with
  | some c => (c.getEpochFee epoch).gross x
  | none => x

theorem gc_gross_net (m : Mint) (epoch : UInt64) :
    GaloisConnection (m.gross epoch) (m.net epoch) := by
  intro x z
  unfold gross net
  cases m.transferFeeConfig with
  | none => exact Iff.rfl
  | some c => exact (c.getEpochFee epoch).gross_le_iff x z

theorem net_gross (m : Mint) (epoch : UInt64) (x : ℕ) : m.net epoch (m.gross epoch x) = x := by
  unfold gross net
  cases m.transferFeeConfig with
  | none => rfl
  | some c => exact (c.getEpochFee epoch).net_gross x

/-- The transfer fee of the epoch on `a`. -/
def epochFee (m : Mint) (epoch : UInt64) (a : UInt64) : UInt64 :=
  match m.transferFeeConfig with
  | some c => (c.getEpochFee epoch).calculateFee a
  | none => 0

theorem toNat_epochFee (m : Mint) (epoch a : UInt64) :
    (m.epochFee epoch a).toNat = m.withheld epoch a.toNat := by
  unfold epochFee withheld
  cases m.transferFeeConfig with
  | none => rfl
  | some c => exact (c.getEpochFee epoch).toNat_calculateFee a

end Mint

/-- A token account. -/
structure TokenAccount where
  authority : Pubkey
  amount : UInt64
  deriving DecidableEq, Repr

/-- The ledger of a mint: the mint and its token accounts. -/
structure Tokens where
  mint : Mint
  accounts : Pubkey → Option TokenAccount
  /-- what else the token program looks at: which accounts are frozen, their
  extensions, who signs for a multisig, the lamports of a payer -/
  rest : List UInt8

namespace Tokens

/-- The balance of an account, 0 when there is none. -/
def balance (t : Tokens) (k : Pubkey) : ℕ := ((t.accounts k).map (·.amount.toNat)).getD 0

/-- Whose hands an account is in. -/
def hands (t : Tokens) (k : Pubkey) : Option Pubkey := (t.accounts k).map (·.authority)

theorem balance_of_accounts {t : Tokens} {k : Pubkey} {acc : TokenAccount}
    (h : t.accounts k = some acc) : t.balance k = acc.amount.toNat := by
  simp [balance, h]

/-- Accounts are whose hands they are in, and what they hold. -/
theorem accounts_of_hands {t t' : Tokens} (hhands : ∀ k, t.hands k = t'.hands k)
    (hbalance : ∀ k, t.balance k = t'.balance k) : t.accounts = t'.accounts := by
  funext k
  have hk := hhands k
  have hb := hbalance k
  unfold hands at hk
  unfold balance at hb
  cases h : t.accounts k with
  | none => cases h' : t'.accounts k <;> simp_all
  | some acc =>
      cases h' : t'.accounts k with
      | none => simp_all
      | some acc' =>
          obtain ⟨authority, amount⟩ := acc
          obtain ⟨authority', amount'⟩ := acc'
          rw [h, h'] at hk hb
          simp only [Option.map_some, Option.some.injEq, Option.getD_some] at hk hb
          rw [hk, UInt64.toNat_inj.mp hb]

/-! ## what the instructions do -/

/-- At most an empty account was opened. -/
structure Opened (t t' : Tokens) : Prop where
  mint : t'.mint = t.mint
  balance : ∀ k, t'.balance k = t.balance k

theorem Opened.refl (t : Tokens) : Opened t t := ⟨rfl, fun _ => rfl⟩

/-- The effect of opening an account: it is in the hands of `authority`, with
nothing in it. -/
structure OpenedAt (t t' : Tokens) (k authority : Pubkey) : Prop where
  mint : t'.mint = t.mint
  accounts : t'.accounts = Function.update t.accounts k (some ⟨authority, 0⟩)

theorem OpenedAt.hands {t t' : Tokens} {k authority : Pubkey} (h : t.OpenedAt t' k authority)
    (j : Pubkey) : t'.hands j = if j = k then some authority else t.hands j := by
  rw [Tokens.hands, h.accounts]
  split
  · next hj =>
    rw [hj, Function.update_self]
    rfl
  · next hj => rw [Function.update_of_ne hj, Tokens.hands]

theorem OpenedAt.balance_self {t t' : Tokens} {k authority : Pubkey}
    (h : t.OpenedAt t' k authority) : t'.balance k = 0 := by
  rw [balance, h.accounts, Function.update_self]
  rfl

/-- An account that was not there had nothing in it. -/
theorem OpenedAt.opened {t t' : Tokens} {k authority : Pubkey} (h : t.OpenedAt t' k authority)
    (hnone : t.accounts k = none) : t.Opened t' where
  mint := h.mint
  balance j := by
    by_cases hj : j = k
    · rw [hj, h.balance_self, balance, hnone]
      rfl
    · rw [balance, h.accounts, Function.update_of_ne hj, balance]

/-- The effect of a successful transfer. -/
structure Transferred (t t' : Tokens) (epoch : UInt64) (source dest : Pubkey) (amount : ℕ) :
    Prop where
  mint : t'.mint = t.mint
  covered : amount ≤ t.balance source
  self : source = dest → t'.accounts = t.accounts
  debited : source ≠ dest → t'.balance source + amount = t.balance source
  credited : source ≠ dest → t'.balance dest = t.balance dest + t.mint.net epoch amount
  other : ∀ k, k ≠ source → k ≠ dest → t'.accounts k = t.accounts k

/-- A transfer from an account to itself moves nothing. -/
theorem Transferred.balance_of_self {t t' : Tokens} {epoch : UInt64} {source dest : Pubkey}
    {amount : ℕ} (h : t.Transferred t' epoch source dest amount) (hself : source = dest)
    (k : Pubkey) : t'.balance k = t.balance k := by
  rw [balance, h.self hself, balance]

/-- The effect of a successful burn. -/
structure Burned (t t' : Tokens) (source : Pubkey) (amount : ℕ) : Prop where
  supply : t'.mint.supply.toNat + amount = t.mint.supply.toNat
  fees : t'.mint.transferFeeConfig = t.mint.transferFeeConfig
  debited : t'.balance source + amount = t.balance source
  other : ∀ k, k ≠ source → t'.accounts k = t.accounts k

/-- The effect of a successful mint. -/
structure Minted (t t' : Tokens) (dest : Pubkey) (amount : ℕ) : Prop where
  supply : t'.mint.supply.toNat = t.mint.supply.toNat + amount
  fees : t'.mint.transferFeeConfig = t.mint.transferFeeConfig
  credited : t'.balance dest = t.balance dest + amount
  other : ∀ k, k ≠ dest → t'.accounts k = t.accounts k

/-- No account is opened, closed or changes hands, and of the mint at most
the supply changes. -/
structure Kept (t t' : Tokens) : Prop where
  hands : ∀ k, t'.hands k = t.hands k
  mint : t'.mint = { t.mint with supply := t'.mint.supply }

theorem Kept.refl (t : Tokens) : t.Kept t := ⟨fun _ => rfl, rfl⟩

theorem Kept.trans {t t' t'' : Tokens} (h : t.Kept t') (h' : t'.Kept t'') : t.Kept t'' where
  hands k := (h'.hands k).trans (h.hands k)
  mint := by rw [h'.mint, h.mint]

end Tokens

/-- The token program, and the programs that open accounts.  An instruction
that is refused returns `none`. -/
structure TokenProgram where
  /-- `token_interface::transfer_checked`, in an epoch: source, destination,
  authority, amount, decimals -/
  transferChecked : Tokens → UInt64 → Pubkey → Pubkey → Pubkey → UInt64 → UInt8 → Option Tokens
  /-- `token_interface::burn`: source, authority, amount -/
  burn : Tokens → Pubkey → Pubkey → UInt64 → Option Tokens
  /-- `spl_token_2022::instruction::mint_to`: destination, mint authority, the
  key that signs for it, amount -/
  mintTo : Tokens → Pubkey → Pubkey → Pubkey → UInt64 → Option Tokens
  /-- what `init` and `init_if_needed` invoke for a token account: payer,
  address, authority -/
  create : Tokens → Pubkey → Pubkey → Pubkey → Option Tokens
  transferred : ∀ {t t' epoch source dest authority amount decimals},
    transferChecked t epoch source dest authority amount decimals = some t' →
      t.Transferred t' epoch source dest amount.toNat
  burned : ∀ {t t' source authority amount}, burn t source authority amount = some t' →
    t.Burned t' source amount.toNat
  minted : ∀ {t t' dest mintAuthority signer amount},
    mintTo t dest mintAuthority signer amount = some t' → t.Minted t' dest amount.toNat
  opened : ∀ {t t' payer k authority}, t.accounts k = none →
    create t payer k authority = some t' → t.OpenedAt t' k authority
  kept_transferChecked : ∀ {t t' epoch source dest authority amount decimals},
    transferChecked t epoch source dest authority amount decimals = some t' → t.Kept t'
  kept_burn : ∀ {t t' source authority amount}, burn t source authority amount = some t' →
    t.Kept t'
  kept_mintTo : ∀ {t t' dest mintAuthority signer amount},
    mintTo t dest mintAuthority signer amount = some t' → t.Kept t'

/-! ## an instance to run on -/

namespace Tokens

/-- Write the amount of an existing account. -/
def setAmount (t : Tokens) (k : Pubkey) (amount : UInt64) : Tokens :=
  { t with accounts :=
      Function.update t.accounts k ((t.accounts k).map fun acc => { acc with amount }) }

theorem accounts_setAmount_of_ne (t : Tokens) {k j : Pubkey} (x : UInt64) (h : j ≠ k) :
    (t.setAmount k x).accounts j = t.accounts j := Function.update_of_ne h _ _

theorem balance_setAmount_of_ne (t : Tokens) {k j : Pubkey} (x : UInt64) (h : j ≠ k) :
    (t.setAmount k x).balance j = t.balance j := by
  rw [balance, accounts_setAmount_of_ne t x h, balance]

theorem balance_setAmount_self {t : Tokens} {k : Pubkey} {acc : TokenAccount} (x : UInt64)
    (h : t.accounts k = some acc) : (t.setAmount k x).balance k = x.toNat := by
  simp [balance, setAmount, h]

theorem hands_setAmount (t : Tokens) (k : Pubkey) (x : UInt64) (j : Pubkey) :
    (t.setAmount k x).hands j = t.hands j := by
  unfold hands
  by_cases hj : j = k
  · subst hj
    simp only [setAmount, Function.update_self, Option.map_map]
    rfl
  · rw [accounts_setAmount_of_ne t x hj]

/-- Open an account, with nothing in it. -/
def create (t : Tokens) (k authority : Pubkey) : Tokens :=
  { t with accounts := Function.update t.accounts k (some ⟨authority, 0⟩) }

/-- A ledger to run on: all of the supply is in account 21, which belongs to
key 20. -/
def sample (supply : UInt64) (mintAuthority : Pubkey) (fee : Option TransferFee) : Tokens where
  mint := {
    decimals := 9
    supply
    mintAuthority := some mintAuthority
    transferFeeConfig := fee.map fun f => ⟨fun _ => f⟩
    tokenProgram := .ofByte 3 }
  accounts k := if k = .ofByte 21 then some ⟨.ofByte 20, supply⟩ else none
  rest := []

end Tokens

namespace TokenProgram

open Tokens

def sampleTransfer (t : Tokens) (epoch : UInt64) (source dest authority : Pubkey)
    (amount : UInt64) (decimals : UInt8) : Option Tokens := do
  let sourceAcc ← t.accounts source
  let destAcc ← t.accounts dest
  let left ← sourceAcc.amount.checkedSub amount
  if sourceAcc.authority ≠ authority ∨ decimals ≠ t.mint.decimals then none
  else if source = dest then pure t
  else do
    let credit ← amount.checkedSub (t.mint.epochFee epoch amount)
    let total ← destAcc.amount.checkedAdd credit
    pure ((t.setAmount source left).setAmount dest total)

def sampleBurn (t : Tokens) (source authority : Pubkey) (amount : UInt64) : Option Tokens := do
  let sourceAcc ← t.accounts source
  let left ← sourceAcc.amount.checkedSub amount
  let supply ← t.mint.supply.checkedSub amount
  if sourceAcc.authority ≠ authority then none
  else pure { t.setAmount source left with mint := { t.mint with supply } }

def sampleMintTo (t : Tokens) (dest mintAuthority signer : Pubkey) (amount : UInt64) :
    Option Tokens := do
  let destAcc ← t.accounts dest
  let total ← destAcc.amount.checkedAdd amount
  let supply ← t.mint.supply.checkedAdd amount
  if t.mint.mintAuthority ≠ some mintAuthority ∨ mintAuthority ≠ signer then none
  else pure { t.setAmount dest total with mint := { t.mint with supply } }

section

variable {t t' : Tokens} {epoch amount : UInt64} {source dest authority signer : Pubkey}
  {decimals : UInt8}

theorem transferred_sampleTransfer
    (h : sampleTransfer t epoch source dest authority amount decimals = some t') :
    t.Transferred t' epoch source dest amount.toNat ∧ t.Kept t' := by
  simp only [sampleTransfer, bind, pure, Option.bind_eq_some_iff, UInt64.checkedSub_eq_some,
    Option.ite_none_left_eq_some] at h
  obtain ⟨src, hsrc, dst, hdst, left, hleft, -, h⟩ := h
  have hcovered : amount.toNat ≤ t.balance source := by
    rw [balance_of_accounts hsrc]
    omega
  split at h
  · next heq =>
    rw [← Option.some.inj h]
    exact ⟨⟨rfl, hcovered, fun _ => rfl, fun hne => absurd heq hne, fun hne => absurd heq hne,
      fun _ _ _ => rfl⟩, .refl t⟩
  · next hne =>
    have hdst' : (t.setAmount source left).accounts dest = some dst := by
      rw [accounts_setAmount_of_ne t left (Ne.symm hne), hdst]
    simp only [Option.bind_eq_some_iff, UInt64.checkedSub_eq_some, UInt64.checkedAdd_eq_some,
      Option.some.injEq] at h
    obtain ⟨credit, hcredit, total, htotal, rfl⟩ := h
    refine ⟨⟨rfl, hcovered, fun heq => absurd heq hne, fun _ => ?_, fun _ => ?_, ?_⟩,
      fun k => ?_, rfl⟩
    · rw [balance_setAmount_of_ne _ total hne, balance_setAmount_self left hsrc,
        balance_of_accounts hsrc, hleft]
    · have hnet := t.mint.net_add_withheld epoch amount.toNat
      rw [Mint.toNat_epochFee] at hcredit
      rw [balance_setAmount_self total hdst', balance_of_accounts hdst]
      omega
    · intro k hks hkd
      rw [accounts_setAmount_of_ne _ total hkd, accounts_setAmount_of_ne t left hks]
    · rw [hands_setAmount, hands_setAmount]

theorem burned_sampleBurn (h : sampleBurn t source authority amount = some t') :
    t.Burned t' source amount.toNat ∧ t.Kept t' := by
  simp only [sampleBurn, bind, pure, Option.bind_eq_some_iff, UInt64.checkedSub_eq_some,
    Option.ite_none_left_eq_some, Option.some.injEq] at h
  obtain ⟨src, hsrc, left, hleft, supply, hsupply, -, rfl⟩ := h
  refine ⟨⟨hsupply, rfl, ?_, fun k hk => accounts_setAmount_of_ne t left hk⟩,
    hands_setAmount t source left, rfl⟩
  have hbalance : (t.setAmount source left).balance source = left.toNat :=
    balance_setAmount_self left hsrc
  rw [balance_of_accounts hsrc, ← hleft, ← hbalance]
  rfl

theorem minted_sampleMintTo (h : sampleMintTo t dest authority signer amount = some t') :
    t.Minted t' dest amount.toNat ∧ t.Kept t' := by
  simp only [sampleMintTo, bind, pure, Option.bind_eq_some_iff, UInt64.checkedAdd_eq_some,
    Option.ite_none_left_eq_some, Option.some.injEq] at h
  obtain ⟨dst, hdst, total, htotal, supply, hsupply, -, rfl⟩ := h
  refine ⟨⟨hsupply.symm, rfl, ?_, fun k hk => accounts_setAmount_of_ne t total hk⟩,
    hands_setAmount t dest total, rfl⟩
  have hbalance : (t.setAmount dest total).balance dest = total.toNat :=
    balance_setAmount_self total hdst
  rw [balance_of_accounts hdst, htotal, ← hbalance]
  rfl

end

/-- A token program under which nothing is frozen, a mint authority signs for
itself, and every payer can pay. -/
def sample : TokenProgram where
  transferChecked := sampleTransfer
  burn := sampleBurn
  mintTo := sampleMintTo
  create t _ k authority := some (t.create k authority)
  transferred h := (transferred_sampleTransfer h).1
  burned h := (burned_sampleBurn h).1
  minted h := (minted_sampleMintTo h).1
  opened _ h := by
    rw [← Option.some.inj h]
    exact ⟨rfl, rfl⟩
  kept_transferChecked h := (transferred_sampleTransfer h).2
  kept_burn h := (burned_sampleBurn h).2
  kept_mintTo h := (minted_sampleMintTo h).2

end TokenProgram

end CrossChain
