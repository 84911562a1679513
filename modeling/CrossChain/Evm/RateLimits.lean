import CrossChain.Evm.Wrapper
import Mathlib.Algebra.Order.BigOperators.Group.List

/-!
# CrossChain.Evm.RateLimits

Whether what is done in one direction of `OFTWrapperUpgradeable` leaves the
limits of the other alone.

The limit of source `src` is kept under the key `src + INBOUND_EID_OFFSET`,
which is a `uint32` like any destination id.  So the two directions are apart
exactly where no destination is that key (`limits_apart`).
-/

namespace CrossChain.Evm.OFTWrapperUpgradeable

variable {d : Deployment}

/-- The inbound limit of `srcEid` reads the same in both states. -/
structure SameInbound (w w' : Wrapper d) (srcEid : UInt32) : Prop where
  limits : inboundRateLimits w' srcEid = inboundRateLimits w srcEid
  amountCanBeReceived : ∀ now,
    getAmountCanBeReceived w' now srcEid = getAmountCanBeReceived w now srcEid

/-- The outbound limit of `dstEid` reads the same in both states. -/
def SameOutbound (w w' : Wrapper d) (dstEid : UInt32) : Prop :=
  w'.rateLimits dstEid = w.rateLimits dstEid

theorem sameInbound_iff {w w' : Wrapper d} {srcEid : UInt32} :
    SameInbound w w' srcEid ↔
      ∀ key, srcEid.checkedAdd INBOUND_EID_OFFSET = some key →
        w'.rateLimits key = w.rateLimits key := by
  constructor
  · intro h key hkey
    have hlimits := h.limits
    rw [inboundRateLimits, inboundRateLimits, hkey] at hlimits
    exact Option.some.inj hlimits
  · intro h
    cases hkey : srcEid.checkedAdd INBOUND_EID_OFFSET with
    | none => exact ⟨by simp [inboundRateLimits, hkey], by simp [getAmountCanBeReceived, hkey]⟩
    | some key =>
        constructor
        · simp [inboundRateLimits, hkey, h key hkey]
        · simp [getAmountCanBeReceived, hkey, h key hkey]

variable (d)

/-- `setOutboundRateLimits` leaves the inbound limit of `src` as it is. -/
def SetOutboundApart (src : UInt32) (configs : List RateLimitConfig) : Prop :=
  ∀ (w w' : Wrapper d) now sender,
    setOutboundRateLimits w now sender configs = some w' → SameInbound w w' src

/-- So does a debit towards `dst`. -/
def DebitApart (src dst : UInt32) : Prop :=
  ∀ (w w' : Wrapper d) now holder amountLD minAmountLD result,
    debit w now holder amountLD minAmountLD dst = some (w', result) → SameInbound w w' src

/-- `setInboundRateLimits` leaves the outbound limit of `dst` as it is. -/
def SetInboundApart (dst : UInt32) (configs : List RateLimitConfig) : Prop :=
  ∀ (w w' : Wrapper d) now sender,
    setInboundRateLimits w now sender configs = some w' → SameOutbound w w' dst

/-- So does a credit from `src`. -/
def CreditApart (src dst : UInt32) : Prop :=
  ∀ (w w' : Wrapper d) now holder amountLD result,
    credit w now holder amountLD src = some (w', result) → SameOutbound w w' dst

variable {d}

/-! ## keys -/

theorem key_iff {src key : UInt32} :
    src.checkedAdd INBOUND_EID_OFFSET = some key ↔ key.toNat = src.toNat + 1000000000 := by
  rw [UInt32.checkedAdd_eq_some, eq_comm]
  rfl

/-- The key of the inbound limit of `src` is no other id. -/
theorem key_ne {src dst key : UInt32} (hkey : src.checkedAdd INBOUND_EID_OFFSET = some key)
    (h : dst.toNat ≠ src.toNat + 1000000000) : key ≠ dst := by
  rintro rfl
  exact h (key_iff.mp hkey)

/-- `offsetConfigs` succeeds when no id reverts, and names the inbound keys of
the ids it was given. -/
theorem offsetConfigs_eq_some {configs offset : List RateLimitConfig}
    (h : offsetConfigs configs = some offset) (key : UInt32) :
    (∃ c ∈ offset, c.dstEid = key) ↔
      ∃ c ∈ configs, key.toNat = c.dstEid.toNat + 1000000000 := by
  induction configs generalizing offset with
  | nil =>
      obtain rfl := Option.some.inj h
      simp
  | cons config configs ih =>
      simp only [offsetConfigs, bind, Option.bind_eq_some_iff, pure, Option.some.injEq] at h
      obtain ⟨first, hfirst, rest, hrest, rfl⟩ := h
      simp only [List.exists_mem_cons_iff, ih hrest]
      refine or_congr_left ?_
      rw [← key_iff, hfirst, Option.some.injEq]

theorem exists_offsetConfigs {configs : List RateLimitConfig} :
    (∃ offset, offsetConfigs configs = some offset) ↔
      ∀ c ∈ configs, c.dstEid.toNat + 1000000000 < 2 ^ 32 := by
  induction configs with
  | nil => simp [offsetConfigs]
  | cons config configs ih =>
      rw [List.forall_mem_cons, ← ih]
      constructor
      · rintro ⟨offset, h⟩
        simp only [offsetConfigs, bind, Option.bind_eq_some_iff] at h
        obtain ⟨first, hfirst, rest, hrest, -⟩ := h
        exact ⟨key_iff.mp hfirst ▸ first.toNat_lt_size, rest, hrest⟩
      · rintro ⟨hfirst, rest, hrest⟩
        have hkey : config.dstEid.checkedAdd INBOUND_EID_OFFSET =
            some (config.dstEid + INBOUND_EID_OFFSET) := if_pos hfirst
        exact ⟨_, by rw [offsetConfigs, hkey, hrest]; rfl⟩

/-! ## calls that change a limit -/

/-- A list of configurations changes every entry it names, of some wrapper. -/
theorem exists_configure (d : Deployment) {configs : List RateLimitConfig} {key : UInt32}
    (hkey : ∃ c ∈ configs, c.dstEid = key) :
    ∃ w w' : Wrapper d, w.configure 0 w.owner configs = some w' ∧
      w'.rateLimits key ≠ w.rateLimits key := by
  obtain ⟨token, -⟩ := d.paxosToken.accepts
  -- a limit above all that the list writes
  let w : Wrapper d :=
    ⟨FixedBytes.zero 20, fun _ => ⟨0, 0, (configs.map (·.limit)).sum + 1, 0⟩, token⟩
  obtain ⟨m', hm'⟩ := d.limiter.exists_setRateLimits (m := w.rateLimits) (fun _ => rfl) configs
  refine ⟨w, { w with rateLimits := m' }, Wrapper.configure_eq_some.mpr ⟨rfl, m', hm', rfl⟩, ?_⟩
  intro hsame
  obtain ⟨c, hc, hlimit⟩ | hnot := RateLimiter.limit_setRateLimits hm' key
  · have hle : c.limit ≤ (configs.map (·.limit)).sum :=
      List.single_le_sum (fun _ _ => Nat.zero_le _) _ (List.mem_map_of_mem hc)
    have hlimit' : c.limit = (configs.map (·.limit)).sum + 1 :=
      hlimit.symm.trans (congrArg RateLimit.limit hsame)
    omega
  · obtain ⟨c, hc, hck⟩ := hkey
    exact hnot c hc hck

/-- An entry that was never written. -/
def unset : RateLimit := ⟨0, 0, 0, 0⟩

/-- An outflow of nothing still writes its time. -/
theorem outflow_unset (lib : RateLimiter) (key : UInt32) :
    ∃ m', lib.outflow 1 (fun _ => unset) key 0 = some m' ∧ m' key ≠ unset := by
  refine ⟨Function.update (fun _ => unset) key ⟨0, 1, 0, 0⟩, ?_, ?_⟩
  · rw [RateLimiter.outflow, lib.outflow_elapsed 1 unset 0 (by decide) (by decide)]
    rfl
  · rw [Function.update_self]
    decide

theorem exists_debit (d : Deployment) (dst : UInt32) :
    ∃ (w w' : Wrapper d) (holder : Address) (result : ℕ × ℕ),
      debit w 1 holder 0 0 dst = some (w', result) ∧ w'.rateLimits dst ≠ w.rateLimits dst := by
  obtain ⟨token, holder, hburn, -⟩ := d.paxosToken.accepts
  obtain ⟨token', htoken⟩ := Option.isSome_iff_exists.mp hburn
  obtain ⟨m', hm', hne⟩ := outflow_unset d.limiter dst
  refine ⟨⟨FixedBytes.zero 20, fun _ => unset, token⟩, ⟨FixedBytes.zero 20, m', token'⟩, holder,
    (0, 0), ?_, hne⟩
  simp [debit, Wrapper.debit, OFTCore.debitView_eq, hm', htoken]

theorem exists_credit (d : Deployment) {src key : UInt32}
    (hkey : src.checkedAdd INBOUND_EID_OFFSET = some key) :
    ∃ (w w' : Wrapper d) (holder : Address) (result : ℕ),
      credit w 1 holder 0 src = some (w', result) ∧ w'.rateLimits key ≠ w.rateLimits key := by
  obtain ⟨token, holder, -, hmint⟩ := d.paxosToken.accepts
  obtain ⟨token', htoken⟩ := Option.isSome_iff_exists.mp hmint
  obtain ⟨m', hm', hne⟩ := outflow_unset d.limiter key
  refine ⟨⟨FixedBytes.zero 20, fun _ => unset, token⟩, ⟨FixedBytes.zero 20, m', token'⟩, holder,
    0, ?_, hne⟩
  simp [credit, hkey, hm', htoken]

/-! ## the two directions -/

theorem setOutboundApart_iff (d : Deployment) (src : UInt32) (configs : List RateLimitConfig) :
    SetOutboundApart d src configs ↔
      ∀ c ∈ configs, c.dstEid.toNat ≠ src.toNat + 1000000000 := by
  constructor
  · intro h c hc hcollide
    obtain ⟨w, w', hrun, hne⟩ := exists_configure d ⟨c, hc, rfl⟩
    exact hne (sameInbound_iff.mp (h w w' 0 w.owner hrun) _ (key_iff.mpr hcollide))
  · intro h w w' now sender hrun
    obtain ⟨-, m', hm', rfl⟩ := Wrapper.configure_eq_some.mp hrun
    refine sameInbound_iff.mpr fun key hkey => ?_
    exact RateLimiter.setRateLimits_of_not_mem hm' fun c hc => (key_ne hkey (h c hc)).symm

theorem debitApart_iff (d : Deployment) (src dst : UInt32) :
    DebitApart d src dst ↔ dst.toNat ≠ src.toNat + 1000000000 := by
  constructor
  · intro h hcollide
    obtain ⟨w, w', holder, result, hrun, hne⟩ := exists_debit d dst
    exact hne (sameInbound_iff.mp (h w w' 1 holder 0 0 result hrun) _ (key_iff.mpr hcollide))
  · intro h w w' now holder amountLD minAmountLD result hrun
    obtain ⟨sent, received⟩ := result
    obtain ⟨-, hdebited⟩ := Wrapper.debited hrun
    exact sameInbound_iff.mpr fun key hkey =>
      RateLimiter.outflow_of_ne hdebited.outflow (key_ne hkey h)

theorem setInboundApart_iff (d : Deployment) (dst : UInt32) (configs : List RateLimitConfig) :
    SetInboundApart d dst configs ↔
      ((∀ c ∈ configs, c.dstEid.toNat + 1000000000 < 2 ^ 32) →
        ∀ c ∈ configs, dst.toNat ≠ c.dstEid.toNat + 1000000000) := by
  constructor
  · intro h hfits c hc hcollide
    obtain ⟨offset, hoffset⟩ := exists_offsetConfigs.mpr hfits
    obtain ⟨w, w', hrun, hne⟩ :=
      exists_configure d ((offsetConfigs_eq_some hoffset dst).mpr ⟨c, hc, hcollide⟩)
    exact hne (h w w' 0 w.owner (by rw [setInboundRateLimits, hoffset]; exact hrun))
  · intro h w w' now sender hrun
    obtain ⟨offset, hoffset, hconfigure⟩ := Option.bind_eq_some_iff.mp hrun
    obtain ⟨-, m', hm', rfl⟩ := Wrapper.configure_eq_some.mp hconfigure
    refine RateLimiter.setRateLimits_of_not_mem hm' fun c hc hck => ?_
    obtain ⟨c', hc', hcollide⟩ := (offsetConfigs_eq_some hoffset dst).mp ⟨c, hc, hck⟩
    exact h (exists_offsetConfigs.mp ⟨offset, hoffset⟩) c' hc' hcollide

theorem creditApart_iff (d : Deployment) (src dst : UInt32) :
    CreditApart d src dst ↔ dst.toNat ≠ src.toNat + 1000000000 := by
  constructor
  · intro h hcollide
    obtain ⟨w, w', holder, result, hrun, hne⟩ := exists_credit d (key_iff.mpr hcollide)
    exact hne (h w w' 1 holder 0 result hrun)
  · intro h w w' now holder amountLD result hrun
    obtain ⟨⟨key, hkey, houtflow⟩, -⟩ := credited hrun
    exact RateLimiter.outflow_of_ne houtflow (key_ne hkey h).symm

/-- The directions are apart exactly where no destination that is named is
`INBOUND_EID_OFFSET` above a source that is named.  For a list of sources
this is so unless one of them reverts the call. -/
theorem limits_apart (d : Deployment) (src dst : UInt32) (outbound inbound : List RateLimitConfig) :
    (SetOutboundApart d src outbound ↔
      ∀ c ∈ outbound, c.dstEid.toNat ≠ src.toNat + 1000000000) ∧
    (DebitApart d src dst ↔ dst.toNat ≠ src.toNat + 1000000000) ∧
    (SetInboundApart d dst inbound ↔
      ((∀ c ∈ inbound, c.dstEid.toNat + 1000000000 < 2 ^ 32) →
        ∀ c ∈ inbound, dst.toNat ≠ c.dstEid.toNat + 1000000000)) ∧
    (CreditApart d src dst ↔ dst.toNat ≠ src.toNat + 1000000000) :=
  ⟨setOutboundApart_iff d src outbound, debitApart_iff d src dst,
    setInboundApart_iff d dst inbound, creditApart_iff d src dst⟩

theorem limits_apart_example :
    SetOutboundApart (.sample 0) 1 [⟨2, 5, 60⟩, ⟨1, 7, 60⟩] ∧ DebitApart (.sample 0) 1 2 ∧
      SetInboundApart (.sample 0) 2 [⟨1, 5, 60⟩] ∧ CreditApart (.sample 0) 1 2 := by
  obtain ⟨hset, hdebit, hinbound, hcredit⟩ :=
    limits_apart (.sample 0) 1 2 [⟨2, 5, 60⟩, ⟨1, 7, 60⟩] [⟨1, 5, 60⟩]
  exact ⟨hset.mpr (by decide), hdebit.mpr (by decide), hinbound.mpr (by decide),
    hcredit.mpr (by decide)⟩

/-- A wrapper with no limits. -/
def sampleWrapper : Wrapper (.sample 0) := ⟨FixedBytes.zero 20, fun _ => unset, (0, fun _ => 0)⟩

/-- Source 1 and destination 1000000001 share a key: the limit of 5 set for
the destination replaces the limit of 1000 set for the source. -/
theorem limits_collide :
    (do let w ← setInboundRateLimits sampleWrapper 100 sampleWrapper.owner [⟨1, 1000, 60⟩]
        inboundRateLimits w 1) = some ⟨0, 100, 1000, 60⟩ ∧
    (do let w ← setInboundRateLimits sampleWrapper 100 sampleWrapper.owner [⟨1, 1000, 60⟩]
        let w ← setOutboundRateLimits w 100 w.owner [⟨1000000001, 5, 60⟩]
        inboundRateLimits w 1) = some ⟨0, 100, 5, 60⟩ ∧
    ¬ SetOutboundApart (.sample 0) 1 [⟨1000000001, 5, 60⟩] ∧
    ¬ DebitApart (.sample 0) 1 1000000001 ∧
    ¬ SetInboundApart (.sample 0) 1000000001 [⟨1, 1000, 60⟩] ∧
    ¬ CreditApart (.sample 0) 1 1000000001 := by
  refine ⟨by decide +kernel, by decide +kernel, ?_, ?_, ?_, ?_⟩
  · exact fun h => (setOutboundApart_iff _ _ _).mp h ⟨1000000001, 5, 60⟩ List.mem_cons_self rfl
  · exact fun h => (debitApart_iff _ _ _).mp h rfl
  · exact fun h => (setInboundApart_iff _ _ _).mp h (by decide) ⟨1, 1000, 60⟩ List.mem_cons_self rfl
  · exact fun h => (creditApart_iff _ _ _).mp h rfl

end CrossChain.Evm.OFTWrapperUpgradeable
