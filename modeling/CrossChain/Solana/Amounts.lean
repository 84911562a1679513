import CrossChain.Lib.Charging
import CrossChain.Solana.State

/-!
# CrossChain.Solana.Amounts

How much a transfer takes, delivers and costs (`compute_fee_and_adjust_amount`
and its helpers in instructions/quote_send.rs).

An adapter computes the amount twice over: what is left of the input after
the mint's transfer fee, without dust, and then the amount to send so that
exactly this is left.  `calculatePreFeeAmount_eq` says that the second
computation is the gross-up of `CrossChain.Lib.CappedFee`, overflow apart.
On its way to a native store an amount loses nothing and is its own gross-up:
with this, both branches compute one charge
(`computeFeeAndAdjustAmount_eq_ok`), and `charged` is what the rest of the
development uses of it.
-/

namespace CrossChain

def MAX_FEE_BASIS_POINTS : UInt16 := 10000

/-- `ceil_div` on `u128`. -/
def ceilDiv (numerator denominator : ℕ) : Option ℕ := do
  let sum ← U128.checkedAdd numerator denominator
  let pred ← U128.checkedSub sum 1
  U128.checkedDiv pred denominator

/-- `calculate_pre_fee_amount`. -/
def calculatePreFeeAmount (fee : TransferFee) (postFeeAmount : UInt64) : Option UInt64 :=
  let maximumFee := fee.maximumFee
  let transferFeeBasisPoints := fee.transferFeeBasisPoints.toNat
  -- no fee, same amount
  if transferFeeBasisPoints = 0 then some postFeeAmount
  -- 0 zero out, 0 in
  else if postFeeAmount = 0 then some 0
  -- 100%, cap at max fee
  else if transferFeeBasisPoints = ONE_IN_BASIS_POINTS then maximumFee.checkedAdd postFeeAmount
  else do
    let numerator ← U128.checkedMul postFeeAmount.toNat ONE_IN_BASIS_POINTS
    let denominator ← U128.checkedSub ONE_IN_BASIS_POINTS transferFeeBasisPoints
    let rawPreFeeAmount ← ceilDiv numerator denominator
    let rawFee ← U128.checkedSub rawPreFeeAmount postFeeAmount.toNat
    if maximumFee.toNat ≤ rawFee then postFeeAmount.checkedAdd maximumFee
    else UInt64.ofNat? rawPreFeeAmount

/-- `get_post_fee_amount_ld`. -/
def getPostFeeAmountLd (tokenMint : Mint) (clock : Clock) (amountLd : UInt64) : Result UInt64 :=
  match tokenMint.transferFeeConfig with
  | some config =>
      okOr ((config.getEpochFee clock.epoch).calculatePostFeeAmount amountLd) .invalidArgument
  | none => pure amountLd

/-- `get_pre_fee_amount_ld`. -/
def getPreFeeAmountLd (tokenMint : Mint) (clock : Clock) (amountLd : UInt64) : Result UInt64 :=
  match tokenMint.transferFeeConfig with
  | some config =>
      okOr (calculatePreFeeAmount (config.getEpochFee clock.epoch) amountLd) .invalidArgument
  | none => pure amountLd

/-- `calculate_fee`.  The product is taken in `u128`, where it cannot
overflow; the conversion back wraps, as `as u64` does. -/
def calculateFee (preFeeAmount : UInt64) (defaultFeeBps : UInt16) (feeBps : Option UInt16) :
    UInt64 :=
  let finalFeeBps := (feeBps.getD defaultFeeBps).toNat
  if finalFeeBps = 0 ∨ preFeeAmount = 0 then 0
  else UInt64.ofNat (preFeeAmount.toNat * finalFeeBps / ONE_IN_BASIS_POINTS)

/-- `compute_fee_and_adjust_amount`: the amounts sent and received and the
protocol fee. -/
def computeFeeAndAdjustAmount (amountLd : UInt64) (store : OFTStore) (tokenMint : Mint)
    (clock : Clock) (feeBps : Option UInt16) : Result (UInt64 × UInt64 × UInt64) :=
  if store.oftType = .adapter then do
    let postFee ← getPostFeeAmountLd tokenMint clock amountLd
    let amountBeforeFee ← store.removeDust postFee
    let amountSentLd ← getPreFeeAmountLd tokenMint clock amountBeforeFee
    -- remove the oft fee from the amount received
    let oftFeeLd ← store.removeDust (calculateFee amountBeforeFee store.defaultFeeBps feeBps)
    let amountReceivedLd ← orAbort (amountBeforeFee.checkedSub oftFeeLd)
    pure (amountSentLd, amountReceivedLd, oftFeeLd)
  else do
    -- a native mint has no transfer fee
    let amountSentLd ← store.removeDust amountLd
    let oftFeeLd ← store.removeDust (calculateFee amountSentLd store.defaultFeeBps feeBps)
    let amountReceivedLd ← orAbort (amountSentLd.checkedSub oftFeeLd)
    pure (amountSentLd, amountReceivedLd, oftFeeLd)

/-! ## the gross-up -/

theorem ceilDiv_eq {n d : ℕ} (hd : 0 < d) (h : n + d < 2 ^ 128) :
    ceilDiv n d = some (n ⌈/⌉ d) := by
  simp only [ceilDiv, Option.bind_eq_bind]
  rw [U128.checkedAdd_of_lt h, Option.bind_some, U128.checkedSub_of_le (by omega),
    Option.bind_some, U128.checkedDiv_of_ne (by omega), Nat.ceilDiv_eq_add_pred_div]

/-- The five branches compute the gross-up, and report exactly the results
that no `u64` can hold. -/
theorem calculatePreFeeAmount_eq (fee : TransferFee) (x : UInt64) :
    calculatePreFeeAmount fee x = UInt64.ofNat? (fee.gross x.toNat) := by
  have hB := TransferFee.base_pos
  have hp := fee.bps_le
  have hx := x.toNat_lt_two_pow
  have hzero : x = 0 ↔ x.toNat = 0 := by rw [← UInt64.toNat_inj]; rfl
  have hself : UInt64.ofNat? x.toNat = some x := UInt64.ofNat?_eq_some.mpr rfl
  unfold calculatePreFeeAmount TransferFee.gross CappedFee.gross
  simp only [hzero]
  generalize hbps : fee.transferFeeBasisPoints.toNat = p at hp
  generalize fee.maximumFee = m
  by_cases hp0 : p = 0
  · rw [if_pos hp0, if_pos (Or.inl hp0), hself]
  · rw [if_neg hp0]
    by_cases hx0 : x.toNat = 0
    · rw [if_pos hx0, if_pos (Or.inr hx0), hself, hzero.mpr hx0]
    · have hne : ¬ (p = 0 ∨ x.toNat = 0) := not_or.mpr ⟨hp0, hx0⟩
      rw [if_neg hx0, if_neg hne]
      by_cases hpB : p = ONE_IN_BASIS_POINTS
      · rw [if_pos hpB, if_pos hpB, UInt64.checkedAdd, Nat.add_comm]
      · rw [if_neg hpB, if_neg hpB]
        have hd : 0 < ONE_IN_BASIS_POINTS - p := by omega
        have hbase : ONE_IN_BASIS_POINTS = 10000 := rfl
        have hge := CappedFee.le_mul_ceilDiv (by omega : p < ONE_IN_BASIS_POINTS) x.toNat
        have hprod : x.toNat * ONE_IN_BASIS_POINTS < 2 ^ 64 * 10000 :=
          Nat.mul_lt_mul_of_pos_right hx hB
        have hsum : x.toNat * ONE_IN_BASIS_POINTS + (ONE_IN_BASIS_POINTS - p) < 2 ^ 128 := by
          omega
        have hmul : x.toNat * ONE_IN_BASIS_POINTS < 2 ^ 128 := by omega
        simp only [Option.bind_eq_bind]
        rw [U128.checkedMul_of_lt hmul, Option.bind_some, U128.checkedSub_of_le hp,
          Option.bind_some, ceilDiv_eq hd hsum, Option.bind_some,
          U128.checkedSub_of_le hge, Option.bind_some]
        generalize x.toNat * ONE_IN_BASIS_POINTS ⌈/⌉ (ONE_IN_BASIS_POINTS - p) = raw at hge
        split
        · rw [UInt64.checkedAdd, min_eq_right (by omega)]
        · rw [min_eq_left (by omega)]

theorem getPostFeeAmountLd_eq_ok {m : Mint} {clock : Clock} {a c : UInt64} :
    getPostFeeAmountLd m clock a = .ok c ↔ m.net clock.epoch a.toNat = c.toNat := by
  unfold getPostFeeAmountLd Mint.net
  cases m.transferFeeConfig with
  | none => simp only [Except.pure_eq_ok, UInt64.toNat_inj]
  | some config => simp only [Except.okOr_eq_ok, TransferFee.calculatePostFeeAmount_eq_some]

theorem getPreFeeAmountLd_eq_ok {m : Mint} {clock : Clock} {x y : UInt64} :
    getPreFeeAmountLd m clock x = .ok y ↔ m.gross clock.epoch x.toNat = y.toNat := by
  unfold getPreFeeAmountLd Mint.gross
  cases m.transferFeeConfig with
  | none => simp only [Except.pure_eq_ok, UInt64.toNat_inj]
  | some config =>
      simp only [Except.okOr_eq_ok, calculatePreFeeAmount_eq, UInt64.ofNat?_eq_some]

/-! ## the amounts -/

namespace OFTStore

variable (s : OFTStore) (m : Mint) (epoch : UInt64)

/-- What is left of `a` on its way to the store. -/
def left (a : ℕ) : ℕ :=
  match s.oftType with
  | .adapter => m.net epoch a
  | .native => a

/-- The least amount that leaves `x`. -/
def needed (x : ℕ) : ℕ :=
  match s.oftType with
  | .adapter => m.gross epoch x
  | .native => x

theorem gc_needed_left : GaloisConnection (s.needed m epoch) (s.left m epoch) := by
  intro x z
  unfold needed left
  cases s.oftType with
  | adapter => exact m.gc_gross_net epoch x z
  | native => exact Iff.rfl

theorem left_needed (x : ℕ) : s.left m epoch (s.needed m epoch x) = x := by
  unfold needed left
  cases s.oftType with
  | adapter => exact m.net_gross epoch x
  | native => rfl

theorem left_le (a : ℕ) : s.left m epoch a ≤ a := by
  unfold left
  cases s.oftType with
  | adapter => exact m.net_le epoch a
  | native => exact Nat.le_refl a

end OFTStore

/-- Both branches of the code: `before` is what is kept before the fee. -/
theorem computeFeeAndAdjustAmount_eq_ok {a : UInt64} {s : OFTStore} {m : Mint} {clock : Clock}
    {feeBps : Option UInt16} {sent received fee : UInt64} :
    computeFeeAndAdjustAmount a s m clock feeBps = .ok (sent, received, fee) ↔
      ∃ before : UInt64, s.ld2sdRate.toNat ≠ 0 ∧
        Charging.kept (s.left m clock.epoch) s.ld2sdRate.toNat a.toNat = before.toNat ∧
        s.needed m clock.epoch before.toNat = sent.toNat ∧
        CappedFee.floorTo s.ld2sdRate.toNat
          (calculateFee before s.defaultFeeBps feeBps).toNat = fee.toNat ∧
        received.toNat + fee.toNat = before.toNat := by
  unfold computeFeeAndAdjustAmount OFTStore.needed OFTStore.left Charging.kept
  cases htype : s.oftType with
  | adapter =>
      simp only [if_pos, Except.bind_eq_ok, Except.pure_eq_ok, orAbort_eq_ok,
        getPostFeeAmountLd_eq_ok, getPreFeeAmountLd_eq_ok, OFTStore.removeDust_eq_ok,
        UInt64.checkedSub_eq_some, Prod.mk.injEq]
      constructor
      · rintro ⟨postFee, hpost, before, ⟨hrate, hbefore⟩, sent', hsent, fee', ⟨-, hfee⟩, received',
          hsub, rfl, rfl, rfl⟩
        exact ⟨before, hrate, hpost ▸ hbefore, hsent, hfee, hsub⟩
      · rintro ⟨before, hrate, hbefore, hsent, hfee, hsub⟩
        obtain ⟨postFee, hpost⟩ :=
          UInt64.exists_toNat_eq ((m.net_le clock.epoch a.toNat).trans_lt a.toNat_lt_two_pow)
        exact ⟨postFee, hpost, before, ⟨hrate, hpost ▸ hbefore⟩, sent, hsent, fee, ⟨hrate, hfee⟩,
          received, hsub, rfl, rfl, rfl⟩
  | native =>
      simp only [if_neg, reduceCtorEq, not_false_eq_true, Except.bind_eq_ok, Except.pure_eq_ok,
        orAbort_eq_ok, OFTStore.removeDust_eq_ok, UInt64.checkedSub_eq_some, Prod.mk.injEq]
      constructor
      · rintro ⟨sent', ⟨hrate, hsent⟩, fee', ⟨-, hfee⟩, received', hsub, rfl, rfl, rfl⟩
        exact ⟨sent', hrate, hsent, rfl, hfee, hsub⟩
      · rintro ⟨before, hrate, hbefore, hsent, hfee, hsub⟩
        obtain rfl := UInt64.toNat_inj.mp hsent
        exact ⟨before, ⟨hrate, hbefore⟩, fee, ⟨hrate, hfee⟩, received, hsub, rfl, rfl, rfl⟩

/-- What the amounts of a transfer satisfy.  `rate` is the store's
`ld2sdRate`; a sum of two amounts is taken in `Nat`, so that it also says
that nothing overflowed. -/
structure Charged (amountLd : UInt64) (store : OFTStore) (mint : Mint) (epoch : UInt64)
    (sent received fee : UInt64) : Prop where
  rate_ne_zero : store.ld2sdRate.toNat ≠ 0
  sent_le : sent.toNat ≤ amountLd.toNat
  dvd_received : store.ld2sdRate.toNat ∣ received.toNat
  dvd_fee : store.ld2sdRate.toNat ∣ fee.toNat
  adapter : store.oftType = .adapter → received.toNat + fee.toNat = mint.net epoch sent.toNat
  native : store.oftType = .native → received.toNat + fee.toNat = sent.toNat

theorem charged {amountLd : UInt64} {store : OFTStore} {mint : Mint} {clock : Clock}
    {feeBps : Option UInt16} {sent received fee : UInt64}
    (h : computeFeeAndAdjustAmount amountLd store mint clock feeBps = .ok (sent, received, fee)) :
    Charged amountLd store mint clock.epoch sent received fee := by
  obtain ⟨before, hrate, hbefore, hsent, hfee, hsum⟩ := computeFeeAndAdjustAmount_eq_ok.mp h
  have hdvd : store.ld2sdRate.toNat ∣ before.toNat := hbefore ▸ Charging.dvd_kept _
  have hdvdFee : store.ld2sdRate.toNat ∣ fee.toNat := hfee ▸ CappedFee.dvd_floorTo _ _
  have hleft : store.left mint clock.epoch sent.toNat = before.toNat := by
    rw [← hsent, OFTStore.left_needed]
  have hle : store.needed mint clock.epoch before.toNat ≤ amountLd.toNat := by
    refine (store.gc_needed_left mint clock.epoch).l_le ?_
    rw [← hbefore]
    exact Charging.kept_le _
  refine ⟨hrate, hsent ▸ hle, ?_, hdvdFee, fun hadapter => ?_, fun hnative => ?_⟩
  · exact (Nat.dvd_add_iff_left hdvdFee).mpr (hsum ▸ hdvd)
  · rw [OFTStore.left, hadapter] at hleft
    exact hsum.trans hleft.symm
  · rw [OFTStore.left, hnative] at hleft
    exact hsum.trans hleft.symm

/-- What is sent and is neither received nor the fee is, on its way to an
adapter, the fee of the mint. -/
theorem Charged.exists_withheld {a : UInt64} {store : OFTStore} {mint : Mint}
    {epoch sent received fee : UInt64} (h : Charged a store mint epoch sent received fee) :
    ∃ withheld : UInt64, received.toNat + fee.toNat + withheld.toNat = sent.toNat ∧
      (store.oftType = .adapter → withheld.toNat = mint.withheld epoch sent.toNat) := by
  have hnet := mint.net_add_withheld epoch sent.toNat
  have hsent := sent.toNat_lt_two_pow
  obtain ⟨withheld, hwithheld⟩ :=
    UInt64.exists_toNat_eq (n := sent.toNat - received.toNat - fee.toNat) (by omega)
  refine ⟨withheld, ?_, fun hadapter => ?_⟩
  · cases htype : store.oftType with
    | adapter => have hsum := h.adapter htype; omega
    | native => have hsum := h.native htype; omega
  · have hsum := h.adapter hadapter
    omega

end CrossChain
