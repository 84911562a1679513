import CrossChain.Evm.Flow

/-!
# CrossChain.Evm.Directions

`OFTWrapperUpgradeable` with a mapping for each direction.

The contract keeps the limits of both directions in one mapping, where a
source is found `INBOUND_EID_OFFSET` above its id.  What this is meant to be
is `Split`: two mappings, each under the ids themselves.  Where every source
has such a key, and no destination is one, the contract is just that, in every
run of calls; on any other ids it is not (`two_mappings_iff`).
-/

namespace CrossChain.Evm

/-! ## a mapping under other keys -/

namespace RateLimiter

variable {key : UInt32 → UInt32} {K : Set UInt32}

/-- The first mapping holds, under the keys of the ids in `K`, what the second
holds under the ids. -/
def Reads (key : UInt32 → UInt32) (K : Set UInt32) (m m' : RateLimits) : Prop :=
  ∀ id ∈ K, m (key id) = m' id

theorem Reads.update (hkey : Set.InjOn key K) {m m' : RateLimits} (h : Reads key K m m')
    {id : UInt32} (hid : id ∈ K) (rl : RateLimit) :
    Reads key K (Function.update m (key id) rl) (Function.update m' id rl) := by
  intro id' hid'
  by_cases heq : id' = id
  · rw [heq, Function.update_self, Function.update_self]
  · rw [Function.update_of_ne heq, Function.update_of_ne fun h' => heq (hkey hid' hid h'),
      h id' hid']

/-- An outflow reverts in both mappings or goes through in both. -/
theorem Reads.outflow (hkey : Set.InjOn key K) {m m' : RateLimits} (h : Reads key K m m')
    (lib : RateLimiter) {id : UInt32} (hid : id ∈ K) (now amount : ℕ) :
    Option.Rel (Reads key K) (lib.outflow now m (key id) amount)
      (lib.outflow now m' id amount) := by
  rw [RateLimiter.outflow, RateLimiter.outflow, h id hid]
  cases lib.outflowEntry now (m' id) amount with
  | none => exact .none
  | some rl => exact .some (h.update hkey hid rl)

/-- The configurations under the keys of their ids. -/
def rekey (key : UInt32 → UInt32) (configs : List RateLimitConfig) : List RateLimitConfig :=
  configs.map fun c => { c with dstEid := key c.dstEid }

theorem rekey_id (configs : List RateLimitConfig) : rekey id configs = configs :=
  List.map_id configs

/-- So does a list of configurations, under the keys of its ids. -/
theorem Reads.setRateLimits (hkey : Set.InjOn key K) {m m' : RateLimits} (h : Reads key K m m')
    (lib : RateLimiter) (now : ℕ) {configs : List RateLimitConfig}
    (hids : ∀ c ∈ configs, c.dstEid ∈ K) :
    Option.Rel (Reads key K) (lib.setRateLimits now m (rekey key configs))
      (lib.setRateLimits now m' configs) := by
  induction configs generalizing m m' with
  | nil => exact .some h
  | cons config configs ih =>
      obtain ⟨hid, hids⟩ := List.forall_mem_cons.mp hids
      have hentry := h config.dstEid hid
      rw [rekey, List.map_cons, RateLimiter.setRateLimits, RateLimiter.setRateLimits, hentry]
      cases lib.checkpoint now (m' config.dstEid) with
      | none => exact .none
      | some rl => exact ih (h.update hkey hid _) hids

end RateLimiter

namespace OFTWrapperUpgradeable

variable {d : Deployment}

/-! ## the wrapper with two mappings -/

/-- A wrapper that keeps the limits of each direction by themselves, under
the ids. -/
structure Split (d : Deployment) where
  owner : Address
  outbound : RateLimits
  inbound : RateLimits
  token : d.paxosToken.State

/-- A call to it; `none` if it reverts. -/
def Call.runSplit (s : Split d) (now : ℕ) : Call d → Option (Split d)
  | .credit holder amountLD srcEid => do
      let inbound ← d.limiter.outflow now s.inbound srcEid amountLD
      let token ← d.paxosToken.increaseSupplyToAddress s.token amountLD holder
      pure { s with inbound, token }
  | .debit holder amountLD minAmountLD dstEid => do
      let (amountSentLD, _) ← d.core.debitView amountLD minAmountLD dstEid
      let outbound ← d.limiter.outflow now s.outbound dstEid amountSentLD
      let token ← d.paxosToken.decreaseSupplyFromAddress s.token amountSentLD holder
      pure { s with outbound, token }
  | .setOutboundRateLimits sender configs =>
      if sender = s.owner then do
        let outbound ← d.limiter.setRateLimits now s.outbound configs
        pure { s with outbound }
      else none
  | .setInboundRateLimits sender configs =>
      if sender = s.owner then do
        let inbound ← d.limiter.setRateLimits now s.inbound configs
        pure { s with inbound }
      else none
  | .other owner token => some { s with owner, token }

/-- A call that reverts changes nothing. -/
def Split.step (s : Split d) (c : ℕ × Call d) : Split d := (c.2.runSplit s c.1).getD s

/-- The call is about destinations in `D` and sources in `S` only. -/
def Call.Within (D S : Set UInt32) : Call d → Prop
  | .credit _ _ srcEid => srcEid ∈ S
  | .debit _ _ _ dstEid => dstEid ∈ D
  | .setOutboundRateLimits _ configs => ∀ c ∈ configs, c.dstEid ∈ D
  | .setInboundRateLimits _ configs => ∀ c ∈ configs, c.dstEid ∈ S
  | .other _ _ => True

/-- Every source in `S` has a key, as a `uint32`, and no destination in `D` is
that key. -/
structure Apart (D S : Set UInt32) : Prop where
  fits : ∀ src ∈ S, src.toNat + 1000000000 < 2 ^ 32
  ne : ∀ dst ∈ D, ∀ src ∈ S, dst.toNat ≠ src.toNat + 1000000000

/-- What the wrapper reads on destinations in `D` and sources in `S` is what
the other one holds. -/
structure Splits (D S : Set UInt32) (w : Wrapper d) (s : Split d) : Prop where
  owner : w.owner = s.owner
  token : w.token = s.token
  outbound : ∀ dst ∈ D, w.rateLimits dst = s.outbound dst
  inbound : ∀ src ∈ S, ∀ rl, inboundRateLimits w src = some rl → s.inbound src = rl

/-! ## keys of sources -/

/-- The key of a source. -/
def inboundKey (srcEid : UInt32) : UInt32 := srcEid + INBOUND_EID_OFFSET

theorem inboundKey_injective : Function.Injective inboundKey := fun _ _ h =>
  (UInt32.add_left_inj _).mp h

theorem checkedAdd_of_fits {srcEid : UInt32} (h : srcEid.toNat + 1000000000 < 2 ^ 32) :
    srcEid.checkedAdd INBOUND_EID_OFFSET = some (inboundKey srcEid) := if_pos h

theorem offsetConfigs_of_fits {configs : List RateLimitConfig}
    (h : ∀ c ∈ configs, c.dstEid.toNat + 1000000000 < 2 ^ 32) :
    offsetConfigs configs = some (RateLimiter.rekey inboundKey configs) := by
  induction configs with
  | nil => rfl
  | cons config configs ih =>
      obtain ⟨hfirst, hrest⟩ := List.forall_mem_cons.mp h
      rw [offsetConfigs, checkedAdd_of_fits hfirst, ih hrest]
      rfl

theorem credit_of_fits {srcEid : UInt32} (h : srcEid.toNat + 1000000000 < 2 ^ 32) (w : Wrapper d)
    (now : ℕ) (holder : Address) (amountLD : ℕ) :
    credit w now holder amountLD srcEid = (do
      let rateLimits ← d.limiter.outflow now w.rateLimits (inboundKey srcEid) amountLD
      let token ← d.paxosToken.increaseSupplyToAddress w.token amountLD holder
      pure ({ w with rateLimits, token }, amountLD)) := by
  rw [credit, checkedAdd_of_fits h]
  rfl

/-! ## one call -/

section

variable {D S : Set UInt32} {w : Wrapper d} {s : Split d}

theorem inboundRateLimits_of_fits {srcEid : UInt32} (h : srcEid.toNat + 1000000000 < 2 ^ 32) :
    inboundRateLimits w srcEid = some (w.rateLimits (inboundKey srcEid)) := by
  rw [inboundRateLimits, checkedAdd_of_fits h]
  rfl

theorem Splits.outbound_reads (h : Splits D S w s) :
    RateLimiter.Reads id D w.rateLimits s.outbound := h.outbound

/-- The sources read as under their keys. -/
theorem Splits.inbound_reads (hapart : Apart D S) (h : Splits D S w s) :
    RateLimiter.Reads inboundKey S w.rateLimits s.inbound := fun src hsrc =>
  (h.inbound src hsrc _ (inboundRateLimits_of_fits (hapart.fits src hsrc))).symm

theorem Apart.inboundKey_ne (h : Apart D S) {dst src : UInt32} (hdst : dst ∈ D) (hsrc : src ∈ S) :
    inboundKey src ≠ dst :=
  key_ne (checkedAdd_of_fits (h.fits src hsrc)) (h.ne dst hdst src hsrc)

theorem Apart.splits (h : Apart D S) {m outbound inbound : RateLimits}
    (houtbound : RateLimiter.Reads id D m outbound)
    (hinbound : RateLimiter.Reads inboundKey S m inbound) (owner : Address)
    (token : d.paxosToken.State) :
    Splits D S ⟨owner, m, token⟩ ⟨owner, outbound, inbound, token⟩ where
  owner := rfl
  token := rfl
  outbound := houtbound
  inbound src hsrc rl hrl := by
    rw [inboundRateLimits_of_fits (h.fits src hsrc)] at hrl
    exact (hinbound src hsrc).symm.trans (Option.some.inj hrl)

/-- Both wrote to their outbound entries. -/
theorem Splits.outbound_step (hapart : Apart D S) (h : Splits D S w s) {m m' : RateLimits}
    (hm : RateLimiter.Reads id D m m') (hframe : ∀ key ∉ D, m key = w.rateLimits key)
    (token : d.paxosToken.State) :
    Splits D S ⟨s.owner, m, token⟩ ⟨s.owner, m', s.inbound, token⟩ := by
  refine hapart.splits hm (fun src hsrc => ?_) s.owner token
  have hkey : inboundKey src ∉ D := fun hmem => hapart.inboundKey_ne hmem hsrc rfl
  rw [hframe _ hkey, h.inbound_reads hapart src hsrc]

/-- Both wrote to their inbound entries. -/
theorem Splits.inbound_step (hapart : Apart D S) (h : Splits D S w s) {m m' : RateLimits}
    (hm : RateLimiter.Reads inboundKey S m m')
    (hframe : ∀ key, (∀ src ∈ S, inboundKey src ≠ key) → m key = w.rateLimits key)
    (token : d.paxosToken.State) :
    Splits D S ⟨s.owner, m, token⟩ ⟨s.owner, s.outbound, m', token⟩ := by
  refine hapart.splits (fun dst hdst => ?_) hm s.owner token
  rw [id, hframe dst fun _ hsrc => hapart.inboundKey_ne hdst hsrc, h.outbound dst hdst]

theorem Splits.credit_rel (hapart : Apart D S) (h : Splits D S w s) (now : ℕ) (holder : Address)
    (amountLD : ℕ) {srcEid : UInt32} (hsrc : srcEid ∈ S) :
    Option.Rel (Splits D S) ((Call.credit holder amountLD srcEid).run w now)
      ((Call.credit holder amountLD srcEid).runSplit s now) := by
  have houtflow := (h.inbound_reads hapart).outflow inboundKey_injective.injOn d.limiter hsrc now
    amountLD
  simp only [Call.run, Call.runSplit, credit_of_fits (hapart.fits srcEid hsrc), h.owner, h.token]
  refine .map_left (houtflow.bind fun m m' hm _ hreads => ?_)
  cases d.paxosToken.increaseSupplyToAddress s.token amountLD holder with
  | none => exact .none
  | some token =>
      refine .some (h.inbound_step hapart hreads (fun key hkey => ?_) token)
      exact RateLimiter.outflow_of_ne hm (hkey srcEid hsrc).symm

theorem Splits.debit_rel (hapart : Apart D S) (h : Splits D S w s) (now : ℕ) (holder : Address)
    (amountLD minAmountLD : ℕ) {dstEid : UInt32} (hdst : dstEid ∈ D) :
    Option.Rel (Splits D S) ((Call.debit holder amountLD minAmountLD dstEid).run w now)
      ((Call.debit holder amountLD minAmountLD dstEid).runSplit s now) := by
  simp only [Call.run, Call.runSplit, debit, Wrapper.debit, h.owner, h.token]
  cases d.core.debitView amountLD minAmountLD dstEid with
  | none => exact .none
  | some amounts =>
      obtain ⟨sent, received⟩ := amounts
      have houtflow := h.outbound_reads.outflow Function.injective_id.injOn d.limiter hdst now sent
      refine .map_left (houtflow.bind fun m m' hm _ hreads => ?_)
      cases d.paxosToken.decreaseSupplyFromAddress s.token sent holder with
      | none => exact .none
      | some token =>
          refine .some (h.outbound_step hapart hreads (fun key hkey => ?_) token)
          exact RateLimiter.outflow_of_ne hm fun heq => hkey (heq ▸ hdst)

theorem Splits.setOutboundRateLimits_rel (hapart : Apart D S) (h : Splits D S w s) (now : ℕ)
    (sender : Address) {configs : List RateLimitConfig} (hconfigs : ∀ c ∈ configs, c.dstEid ∈ D) :
    Option.Rel (Splits D S) ((Call.setOutboundRateLimits sender configs).run w now)
      ((Call.setOutboundRateLimits sender configs).runSplit s now) := by
  simp only [Call.run, Call.runSplit, setOutboundRateLimits, Wrapper.configure, h.owner, h.token]
  split
  · have hset := h.outbound_reads.setRateLimits Function.injective_id.injOn d.limiter now hconfigs
    rw [RateLimiter.rekey_id] at hset
    refine hset.bind fun m m' hm _ hreads => .some ?_
    refine h.outbound_step hapart hreads (fun key hkey => ?_) s.token
    exact RateLimiter.setRateLimits_of_not_mem hm fun c hc heq => hkey (heq ▸ hconfigs c hc)
  · exact .none

theorem Splits.setInboundRateLimits_rel (hapart : Apart D S) (h : Splits D S w s) (now : ℕ)
    (sender : Address) {configs : List RateLimitConfig} (hconfigs : ∀ c ∈ configs, c.dstEid ∈ S) :
    Option.Rel (Splits D S) ((Call.setInboundRateLimits sender configs).run w now)
      ((Call.setInboundRateLimits sender configs).runSplit s now) := by
  have hfits : ∀ c ∈ configs, c.dstEid.toNat + 1000000000 < 2 ^ 32 :=
    fun c hc => hapart.fits _ (hconfigs c hc)
  simp only [Call.run, Call.runSplit, setInboundRateLimits, Wrapper.configure, h.owner, h.token,
    offsetConfigs_of_fits hfits]
  by_cases howner : sender = s.owner
  · have hset := (h.inbound_reads hapart).setRateLimits inboundKey_injective.injOn d.limiter now
      hconfigs
    simp only [if_pos howner]
    refine hset.bind fun m m' hm _ hreads => .some ?_
    refine h.inbound_step hapart hreads (fun key hkey => ?_) s.token
    refine RateLimiter.setRateLimits_of_not_mem hm fun c hc => ?_
    obtain ⟨c', hc', rfl⟩ := List.mem_map.mp hc
    exact hkey c'.dstEid (hconfigs c' hc')
  · simp only [if_neg howner]
    exact .none

/-- A call about destinations and sources that are apart reverts in both or
in neither, and leaves them alike. -/
theorem Splits.run (hapart : Apart D S) (h : Splits D S w s) (now : ℕ) {call : Call d}
    (hwithin : call.Within D S) :
    Option.Rel (Splits D S) (call.run w now) (call.runSplit s now) := by
  cases call with
  | credit holder amountLD srcEid => exact h.credit_rel hapart now holder amountLD hwithin
  | debit holder amountLD minAmountLD dstEid =>
      exact h.debit_rel hapart now holder amountLD minAmountLD hwithin
  | setOutboundRateLimits sender configs =>
      exact h.setOutboundRateLimits_rel hapart now sender hwithin
  | setInboundRateLimits sender configs =>
      exact h.setInboundRateLimits_rel hapart now sender hwithin
  | other owner token => exact .some ⟨rfl, rfl, h.outbound, h.inbound⟩

end

/-! ## runs of calls -/

/-- A step that does not revert. -/
def succeeds (e : Wrapper d × ℕ × Call d) : Bool := (e.2.2.run e.1 e.2.1).isSome

def Split.succeeds (e : Split d × ℕ × Call d) : Bool := (e.2.2.runSplit e.1 e.2.1).isSome

/-- On destinations in `D` and sources in `S` every run of calls does in the
wrapper what it does with two mappings: the same calls revert, and both end up
with the same token, owner and limits. -/
def TwoMappings (d : Deployment) (D S : Set UInt32) : Prop :=
  ∀ (w : Wrapper d) (s : Split d) (calls : List (ℕ × Call d)), Splits D S w s →
    (∀ c ∈ calls, c.2.Within D S) →
    Splits D S (Run.final step w calls) (Run.final Split.step s calls) ∧
      (Run.trace step w calls).map succeeds = (Run.trace Split.step s calls).map Split.succeeds

theorem twoMappings_of_apart {D S : Set UInt32} (hapart : Apart D S) : TwoMappings d D S := by
  intro w s calls hsplits hwithin
  refine Run.final_rel (P := fun c => c.2.Within D S) (fun w s c h hc => ?_) hsplits hwithin
  have hrun := h.run hapart c.1 hc
  exact ⟨hrun.getD h, hrun.isSome_eq⟩

/-! ## ids that are not apart -/

/-- No limits are set in either. -/
theorem splits_unset (D S : Set UInt32) (owner : Address) (token : d.paxosToken.State) :
    Splits D S ⟨owner, fun _ => unset, token⟩ ⟨owner, fun _ => unset, fun _ => unset, token⟩ where
  owner := rfl
  token := rfl
  outbound _ _ := rfl
  inbound src _ rl hrl := by
    simp only [inboundRateLimits, bind, Option.bind_eq_some_iff, pure, Option.some.injEq] at hrl
    obtain ⟨key, -, hread⟩ := hrl
    exact hread

/-- The owner can set a first limit. -/
theorem exists_firstLimit (lib : RateLimiter) (eid : UInt32) (limit : ℕ) :
    ∃ m, lib.setRateLimits 0 (fun _ => unset) [⟨eid, limit, 0⟩] = some m ∧
      (m eid).limit = limit := by
  have hlast : ∀ key : UInt32, ((fun _ => unset : RateLimits) key).lastUpdated = 0 := fun _ => rfl
  obtain ⟨m, hm⟩ := lib.exists_setRateLimits hlast [⟨eid, limit, 0⟩]
  refine ⟨m, hm, ?_⟩
  obtain ⟨c, hc, hlimit⟩ | hnot := RateLimiter.limit_setRateLimits hm eid
  · rw [List.mem_singleton.mp hc] at hlimit
    exact hlimit
  · exact absurd rfl (hnot _ List.mem_cons_self)

theorem Split.inbound_step_setOutboundRateLimits (s : Split d) (now : ℕ) (sender : Address)
    (configs : List RateLimitConfig) :
    (s.step (now, .setOutboundRateLimits sender configs)).inbound = s.inbound := by
  simp only [Split.step, Call.runSplit]
  split
  · cases d.limiter.setRateLimits now s.outbound configs with
    | none => rfl
    | some m => rfl
  · rfl

/-- The owner cannot set a limit for a source without a key. -/
theorem fits_of_twoMappings {D S : Set UInt32} (h : TwoMappings d D S) :
    ∀ src ∈ S, src.toNat + 1000000000 < 2 ^ 32 := by
  intro src hsrc
  by_contra hnot
  obtain ⟨token, -⟩ := d.paxosToken.accepts
  let owner : Address := FixedBytes.zero 20
  let w : Wrapper d := ⟨owner, fun _ => unset, token⟩
  let s : Split d := ⟨owner, fun _ => unset, fun _ => unset, token⟩
  let call : Call d := .setInboundRateLimits owner [⟨src, 1, 0⟩]
  obtain ⟨-, hreverts⟩ := h w s [(0, call)] (splits_unset D S owner token)
    (by simpa [call, Call.Within] using hsrc)
  have hnone : src.checkedAdd INBOUND_EID_OFFSET = none := if_neg hnot
  have hrun : call.run w 0 = none := by
    simp only [call, Call.run, setInboundRateLimits, offsetConfigs, hnone]
    rfl
  have hsplit : (call.runSplit s 0).isSome := by
    obtain ⟨m, hm, -⟩ := exists_firstLimit d.limiter src 1
    simp only [call, Call.runSplit, s, if_true, hm]
    rfl
  simp only [Run.trace_cons, Run.trace_nil, List.map_cons, List.map_nil, List.cons.injEq,
    and_true, succeeds, Split.succeeds, hrun, hsplit] at hreverts
  exact Bool.false_ne_true hreverts

/-- A limit for a destination is one for the source whose key it is. -/
theorem ne_of_twoMappings {D S : Set UInt32} (h : TwoMappings d D S) :
    ∀ dst ∈ D, ∀ src ∈ S, dst.toNat ≠ src.toNat + 1000000000 := by
  intro dst hdst src hsrc hcollide
  obtain ⟨token, -⟩ := d.paxosToken.accepts
  have hkey : src.checkedAdd INBOUND_EID_OFFSET = some dst := key_iff.mpr hcollide
  let owner : Address := FixedBytes.zero 20
  let w : Wrapper d := ⟨owner, fun _ => unset, token⟩
  let s : Split d := ⟨owner, fun _ => unset, fun _ => unset, token⟩
  -- a limit for `dst` is set, and read for `src`
  let call : ℕ × Call d := (0, .setOutboundRateLimits owner [⟨dst, 1, 0⟩])
  obtain ⟨hend, -⟩ := h w s [call] (splits_unset D S owner token)
    (by simpa [call, Call.Within] using hdst)
  obtain ⟨m, hm, hlimit⟩ := exists_firstLimit d.limiter dst 1
  have hconfigure : w.configure 0 owner [⟨dst, 1, 0⟩] = some ⟨owner, m, token⟩ :=
    Wrapper.configure_eq_some.mpr ⟨rfl, m, hm, rfl⟩
  have hrun : call.2.run w 0 = some ⟨owner, m, token⟩ := hconfigure
  have hstep : step w call = ⟨owner, m, token⟩ := step_of_run hrun
  rw [Run.final_cons, Run.final_cons, Run.final_nil, Run.final_nil, hstep] at hend
  have hread := hend.inbound src hsrc (m dst) (by rw [inboundRateLimits, hkey]; rfl)
  rw [Split.inbound_step_setOutboundRateLimits] at hread
  rw [← hread] at hlimit
  exact Nat.zero_ne_one hlimit

/-- The one mapping is as good as two exactly where every source has a key of
its own, which no destination is. -/
theorem two_mappings_iff (d : Deployment) (D S : Set UInt32) :
    TwoMappings d D S ↔ Apart D S := by
  constructor
  · intro h
    exact ⟨fits_of_twoMappings h, ne_of_twoMappings h⟩
  · intro hapart
    exact twoMappings_of_apart hapart

end OFTWrapperUpgradeable

end CrossChain.Evm
