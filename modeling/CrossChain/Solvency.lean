import CrossChain.Solana.Delivery
import CrossChain.Transfers
import Mathlib.Algebra.Order.BigOperators.Group.List

/-!
# CrossChain.Solvency

A network with one adapter, its hub, where all other supplies start at zero.

The hub then holds, in value locked, every supply there is elsewhere and what
is in flight, and its escrow holds the value locked.  So the supplies can all
come home at once, and no message that reaches the hub fails for want of
tokens (`solvency`).
-/

namespace CrossChain

namespace Node

/-- What `clear` is answered does not matter to where tokens go. -/
theorem keepsApart_clearing {env : Externals} {escrow : Pubkey} {ev : Event}
    (h : KeepsApart env escrow ev) (flight : List Packet) (eid : UInt32) :
    KeepsApart env escrow (ev.clearing flight eid) := by
  cases ev with
  | tx tx =>
      obtain ⟨clock, endpoint, instruction⟩ := tx
      cases instruction with
      | send | lzReceive => exact h
      | lzReceiveTypes | quoteOft | quoteSend | setOftConfig | setPeerConfig | setPause
      | withdrawFee => trivial
  | external => trivial

end Node

namespace Network

variable {ι κ : Type} [DecidableEq ι] [DecidableEq κ] {s : Sites ι κ}

/-! ## the supplies of the others -/

/-- A step that is the program's or a wrapper's, or leaves the supply as it
is. -/
def KeepsSupply : Network s × Action s → Prop
  | (m, .store i ev) => Mesh.KeepsSupply (m.mesh, i, ev)
  | (m, .wrapper k (.other c)) => c.totalSupply = (m.contract k).totalSupply
  | (_, .wrapper _ _) => True

/-- What the native stores and the wrappers burned and minted is their whole
supply. -/
structure Supplied (m : Network s) : Prop where
  stores : m.mesh.Supplied
  wrappers : ∀ k, (m.contract k).totalSupply + m.burned k = m.minted k

omit [DecidableEq ι] in
theorem Called.supplied {m m' : Network s} {k : κ} {call : WrapperCall (s.peer k)}
    (h : Called m k call m') (hkeeps : KeepsSupply (m, .wrapper k call)) (hm : m.Supplied) :
    m'.Supplied := by
  refine ⟨by cases h <;> exact hm.stores, fun j => ?_⟩
  have hold := hm.wrappers j
  by_cases hj : j = k
  · subst hj
    cases h with
    | sent run =>
        have hsupply := Evm.Peer.supply_send run
        simp only [Function.update_self]
        omega
    | received receivable run =>
        obtain ⟨sd, -, hsupply⟩ := supply_receive run
        simp only [Function.update_self]
        omega
    | other c =>
        have hsame : c.totalSupply = (m.contract j).totalSupply := hkeeps
        simpa only [Function.update_self, hsame] using hold
    | notSent | notReceived => exact hold
  · cases h with
    | sent | received | other => simpa only [Function.update_of_ne hj] using hold
    | notSent | notReceived => exact hold

theorem supplied_step (m : Network s) (a : Action s) (hm : m.Supplied)
    (hkeeps : KeepsSupply (m, a)) : (m.step a).Supplied := by
  cases a with
  | store i ev => exact ⟨Mesh.supplied_step _ _ hm.stores hkeeps, hm.wrappers⟩
  | wrapper k call => exact (called m k call).supplied hkeeps hm

/-! ## the hub -/

/-- Before any message: store `hub` is the one adapter, and all other
supplies are zero. -/
structure Hub (s : Sites ι κ) (node : ι → Node) (contract : ∀ k, (s.peer k).Contract) (hub : ι) :
    Prop where
  created : ∀ i, InitOFT.Created (s.env i) (node i)
  adapter : ∀ i, (node i).store.oftType = .adapter ↔ i = hub
  stores : ∀ i, i ≠ hub → (node i).tokens.mint.supply = 0
  wrappers : ∀ k, (contract k).totalSupply = 0

/-- A step in which nobody else mints or burns, and the escrow is no party to
a transfer. -/
structure Undisturbed (hub : ι) (escrow : Pubkey) (e : Network s × Action s) : Prop where
  supply : KeepsSupply e
  apart : ∀ ev, e.2 = .store hub ev → Node.KeepsApart (s.env hub) escrow ev

/-- What a network with a hub keeps. -/
structure Solvent (node : ι → Node) (hub : ι) (m : Network s) : Prop where
  conserved : m.Conserved
  supplied : m.Supplied
  origin : ∀ i, (m.mesh.node i).store.origin = (node i).store.origin
  backed : (m.mesh.node hub).Backed

theorem solvent_start {node : ι → Node} {contract : ∀ k, (s.peer k).Contract} {hub : ι}
    (h : Hub s node contract hub) : Solvent node hub (start node contract : Network s) where
  conserved := conserved_start h.created
  supplied := by
    refine ⟨fun i hi => ?_, fun k => ?_⟩
    · have hne : i ≠ hub := fun heq => by
        rw [start, Mesh.start, (h.adapter i).mpr heq] at hi
        contradiction
      simp [start, Mesh.start, h.stores i hne]
    · simp [start, h.wrappers k]
  origin _ := rfl
  backed := by simp [Node.Backed, start, Mesh.start, (h.created hub).tvlLd]

/-- The store of the hub after a step is as it was, or took the step
itself. -/
theorem node_step (m : Network s) (a : Action s) (i : ι) :
    (m.step a).mesh.node i = m.mesh.node i ∨
      ∃ ev, a = .store i ev ∧ (m.step a).mesh.node i =
        (m.mesh.node i).step (s.env i) (ev.clearing m.mesh.flight (s.eid i)) := by
  cases a with
  | store j ev =>
      have hnode : (m.step (.store j ev)).mesh.node = Function.update m.mesh.node j
          ((m.mesh.node j).step (s.env j) (ev.clearing m.mesh.flight (s.eid j))) :=
        (Mesh.stepped m.mesh j ev).node
      rw [hnode]
      by_cases hij : i = j
      · subst hij
        exact .inr ⟨ev, rfl, Function.update_self _ _ _⟩
      · exact .inl (Function.update_of_ne hij _ _)
  | wrapper k call =>
      have hcalled := called m k call
      generalize m.step (.wrapper k call) = m' at hcalled
      cases hcalled <;> exact .inl rfl

theorem solvent_step {node : ι → Node} {hub : ι} (hadapter : (node hub).store.oftType = .adapter)
    (m : Network s) (a : Action s) (hm : Solvent node hub m)
    (h : Undisturbed hub (node hub).store.tokenEscrow (m, a)) :
    Solvent node hub (m.step a) := by
  refine ⟨conserved_step m a hm.conserved, supplied_step m a hm.supplied h.supply,
    fun i => ?_, ?_⟩
  · rcases node_step m a i with hsame | ⟨ev, -, hstep⟩
    · rw [hsame, hm.origin]
    · rw [hstep, (Node.stepped _ _ _).origin, hm.origin]
  · rcases node_step m a hub with hsame | ⟨ev, ha, hstep⟩
    · rw [hsame]
      exact hm.backed
    · have horigin := hm.origin hub
      have htype : (m.mesh.node hub).store.oftType = .adapter :=
        (congrArg (fun o => o.1) horigin).trans hadapter
      have hescrow : (m.mesh.node hub).store.tokenEscrow = (node hub).store.tokenEscrow :=
        congrArg (fun o => o.2.2.2.1) horigin
      have hapart := Node.keepsApart_clearing (h.apart ev ha) m.mesh.flight (s.eid hub)
      rw [← hescrow] at hapart
      rw [hstep]
      exact ((Node.stepped _ _ _).surplus htype hapart hm.backed).1

variable [Fintype ι] [Fintype κ]

/-- The value locked in the hub is every supply elsewhere and what is in
flight. -/
theorem Solvent.locked {node : ι → Node} {hub : ι} {m : Network s} (h : Solvent node hub m)
    (hadapter : ∀ i, (node i).store.oftType = .adapter ↔ i = hub) :
    (m.mesh.node hub).store.tvlLd.toNat / (m.mesh.node hub).store.ld2sdRate.toNat =
      ∑ i ∈ Finset.univ.erase hub,
          (m.mesh.node i).tokens.mint.supply.toNat / (m.mesh.node i).store.ld2sdRate.toNat +
        ∑ k, (m.contract k).totalSupply / (s.peer k).rate +
        (m.mesh.flight.map Packet.amountSd).sum := by
  have hhub : ∀ i, (m.mesh.node i).store.oftType = .adapter ↔ i = hub := by
    intro i
    rw [show (m.mesh.node i).store.oftType = (node i).store.oftType from
      congrArg (fun o => o.1) (h.origin i)]
    exact hadapter i
  have hdvd := h.conserved.books.exact.dvd
  have hwrapper : ∀ k, ((m.burned k : ℤ) - m.minted k) / (s.peer k).rate =
      -((m.contract k).totalSupply / (s.peer k).rate : ℕ) := by
    intro k
    have hsupply := h.supplied.wrappers k
    have hstake : (m.burned k : ℤ) - m.minted k = -((m.contract k).totalSupply : ℤ) := by omega
    have hdvd' : ((s.peer k).rate : ℤ) ∣ (m.burned k : ℤ) - m.minted k := hdvd (.inr k)
    rw [hstake] at hdvd' ⊢
    rw [Int.neg_ediv_of_dvd (Int.dvd_neg.mp hdvd'), Int.natCast_div]
  have hsum := h.conserved.sum
  rw [Mesh.sum_stake_hub (fun i => hdvd (.inl i)) h.supplied.stores hhub,
    Finset.sum_congr rfl fun k _ => hwrapper k, Finset.sum_neg_distrib, ← Nat.cast_sum] at hsum
  omega

omit [DecidableEq ι] [DecidableEq κ] [Fintype ι] [Fintype κ] in
/-- The values in flight are those of the transfers in flight. -/
theorem Carries.amounts {m : Network s} (h : m.Carries) :
    m.mesh.flight.map Packet.amountSd = m.inFlight.map (·.amountSd.toNat) := by
  rw [h.flight_eq, List.map_map]
  refine congrArg₂ _ (funext fun t => ?_) rfl
  exact Mesh.amountSd_eq t.amountSd_message

/-- What part of a bag amounts to. -/
theorem sum_le_of_subperm {batch bag : List Transfer} (h : batch.Subperm bag) :
    (batch.map (·.amountSd.toNat)).sum ≤ (bag.map (·.amountSd.toNat)).sum := by
  obtain ⟨part, hperm, hsub⟩ := h
  rw [← (hperm.map (·.amountSd.toNat)).sum_eq]
  exact (hsub.map (·.amountSd.toNat)).sum_le_sum fun _ _ => Nat.zero_le _

/-- Solvency.  Where one store is an adapter, and the supplies of the other
stores and of the wrappers start at zero and are changed by the bridge only,
the value locked is, in every state, all of these supplies and what is in
flight, and the escrow has it.  So any number of the transfers in flight can
be paid out at the hub together, and none of them alone fails for want of
value locked or of tokens in the escrow, whatever was sent, received or
withdrawn in between. -/
theorem solvency {ι κ : Type} [DecidableEq ι] [Fintype ι] [DecidableEq κ] [Fintype κ]
    (s : Sites ι κ) (node : ι → Node) (contract : ∀ k, (s.peer k).Contract) (hub : ι)
    (hhub : Hub s node contract hub) (actions : List (Action s))
    (hrun : ∀ e ∈ Run.trace step (start node contract) actions,
      Undisturbed hub (node hub).store.tokenEscrow e) :
    let m := Run.final step (start node contract) actions
    let n := m.mesh.node hub
    n.store.tvlLd.toNat = n.store.ld2sdRate.toNat *
      (∑ i ∈ Finset.univ.erase hub,
          (m.mesh.node i).tokens.mint.supply.toNat / (m.mesh.node i).store.ld2sdRate.toNat +
        ∑ k, (m.contract k).totalSupply / (s.peer k).rate +
        (m.inFlight.map (·.amountSd.toNat)).sum) ∧
    n.store.tvlLd.toNat ≤ n.tokens.balance n.store.tokenEscrow ∧
    (∀ batch : List Transfer, batch.Subperm m.inFlight →
      n.store.ld2sdRate.toNat * (batch.map (·.amountSd.toNat)).sum ≤ n.store.tvlLd.toNat) ∧
    ∀ t ∈ m.inFlight, ∃ amountLd : UInt64,
      t.amountSd.toNat * n.store.ld2sdRate.toNat = amountLd.toNat ∧
      LzReceive.Releasable (s.env hub) n amountLd.toNat ∧
      amountLd.toNat ≤ n.tokens.balance n.store.tokenEscrow := by
  intro m n
  have hadapter := (hhub.adapter hub).mpr rfl
  have hm : Solvent node hub m :=
    Run.final_inv_of_trace (solvent_step hadapter) (solvent_start hhub) hrun
  have hcarries : m.Carries := carries_final node contract actions
  have htype : n.store.oftType = .adapter :=
    (congrArg (fun o => o.1) (hm.origin hub)).trans hadapter
  have hdvd : n.store.ld2sdRate.toNat ∣ n.store.tvlLd.toNat := by
    have hdvd := hm.conserved.books.exact.dvd (.inl hub)
    have hstake : m.books.stake (.inl hub) = n.store.tvlLd.toNat := if_pos htype
    rw [hstake] at hdvd
    exact Int.natCast_dvd_natCast.mp hdvd
  have hlocked : n.store.tvlLd.toNat / n.store.ld2sdRate.toNat = _ := hm.locked hhub.adapter
  rw [hcarries.amounts] at hlocked
  have htvl := (Nat.mul_div_cancel' hdvd).symm
  rw [hlocked] at htvl
  have hbatch : ∀ batch : List Transfer, batch.Subperm m.inFlight →
      n.store.ld2sdRate.toNat * (batch.map (·.amountSd.toNat)).sum ≤ n.store.tvlLd.toNat := by
    intro batch hbatch
    rw [htvl]
    exact Nat.mul_le_mul_left _ ((sum_le_of_subperm hbatch).trans (Nat.le_add_left _ _))
  refine ⟨htvl, hm.backed, hbatch, fun t ht => ?_⟩
  have hone := hbatch [t] (List.singleton_subperm_iff.mpr ht)
  rw [List.map_singleton, List.sum_singleton, Nat.mul_comm] at hone
  have hfits := n.store.tvlLd.toNat_lt_two_pow
  obtain ⟨amountLd, hamount⟩ := UInt64.exists_toNat_eq (hone.trans_lt hfits)
  rw [hamount] at hone
  have hbacked : n.store.tvlLd.toNat ≤ n.tokens.balance n.store.tokenEscrow := hm.backed
  refine ⟨amountLd, hamount, ?_, hone.trans hbacked⟩
  rw [LzReceive.Releasable, htype]
  exact hone

theorem solvency_example :
    let m := Run.final step (start Mesh.sampleStores sampleContracts) sampleActions
    m.inFlight.map (·.amountSd) = [500, 1000] ∧
      ∀ batch : List Transfer, batch.Subperm m.inFlight →
        1000 * (batch.map (·.amountSd.toNat)).sum ≤ 3000000 := by
  intro m
  have hhub : Hub sampleSites Mesh.sampleStores sampleContracts true := by
    refine ⟨created_sampleStores, fun i => by cases i <;> decide, fun i hi => ?_, fun _ => rfl⟩
    cases i with
    | true => contradiction
    | false => rfl
  have hstore : ∀ (n : Network sampleSites) (tx : Tx),
      Node.KeepsApart .sample (.ofByte 12) (.tx tx) →
      Undisturbed true (.ofByte 12) (n, .store true (.tx tx)) :=
    fun n tx h => ⟨fun _ => nofun, fun ev hev => (Action.store.inj hev).2 ▸ h⟩
  have hwrapper : ∀ (n : Network sampleSites) (call : WrapperCall (sampleSites.peer ())),
      KeepsSupply (n, .wrapper () call) → Undisturbed true (.ofByte 12) (n, .wrapper () call) :=
    fun n call h => ⟨h, fun ev hev => by contradiction⟩
  have hsource : Pubkey.ofByte 21 ≠ Pubkey.ofByte 12 := by decide
  have hsteps : ∀ e ∈ Run.trace step (start Mesh.sampleStores sampleContracts) sampleActions,
      Undisturbed true (.ofByte 12) e := by
    intro e he
    obtain ⟨before, after, hrun, -⟩ := Run.mem_trace _ he
    have hmem : e.2 ∈ sampleActions := by rw [hrun]; simp
    obtain ⟨state, a⟩ := e
    simp only [sampleActions, Event.sample, List.mem_cons, List.not_mem_nil, or_false] at hmem
    rcases hmem with rfl | rfl | rfl | rfl | rfl
    · exact hstore _ _ trivial
    · exact hstore _ _ hsource
    · exact hstore _ _ hsource
    · exact hwrapper _ _ trivial
    · exact hwrapper _ _ trivial
  have hbatch := (solvency sampleSites Mesh.sampleStores sampleContracts true hhub sampleActions
    hsteps).2.2.1
  have hrate : (m.mesh.node true).store.ld2sdRate = 1000 := by decide +kernel
  have htvl : (m.mesh.node true).store.tvlLd = 3000000 := by decide +kernel
  refine ⟨by decide +kernel, fun batch hsub => ?_⟩
  have hpaid := hbatch batch hsub
  rwa [hrate, htvl] at hpaid

end Network

end CrossChain
