import CrossChain.Evm.Wrapper
import CrossChain.Lib.Run
import CrossChain.Lib.ValueNet

/-!
# CrossChain.Evm.Mesh

Any number of wrappers that are peers, and the messages in flight between
them.

`send` is a `_debit` and a message that carries the amount received in shared
decimals, and a delivery is a `_credit` of the amount in its message; the
endpoint delivers what is in flight, and once.  A wrapper stakes what it
burned less what it minted, so that the mesh keeps `Books`
(`Stepped.books`).
-/

namespace CrossChain.Evm

/-- Which of the two contracts is deployed. -/
inductive Kind where
  | wrapper
  | upgradeable
  deriving DecidableEq, Repr

/-- A deployment of either contract, at an endpoint id. -/
structure Peer where
  kind : Kind
  eid : UInt32
  deployment : Deployment

/-- The contract of a peer. -/
abbrev Peer.Contract (p : Peer) := Wrapper p.deployment

/-- `decimalConversionRate` of a peer. -/
def Peer.rate (p : Peer) : ℕ := p.deployment.core.decimalConversionRate

/-- A message in flight. -/
structure Packet where
  srcEid : UInt32
  dstEid : UInt32
  guid : FixedBytes 32
  sendTo : Address
  amountSD : UInt64
  deriving DecidableEq, Repr

/-- What happens at a peer. -/
inductive Call (p : Peer) where
  | send (now : ℕ) (holder : Address) (amountLD minAmountLD : ℕ) (dstEid : UInt32)
      (sendTo : Address) (guid : FixedBytes 32)
  | lzReceive (now : ℕ) (packet : Packet)
  /-- configuration, and whatever else changes the contract or its token -/
  | other (contract : p.Contract)

namespace Peer

variable {p : Peer}

/-- `_debit` of the contract. -/
def debit (c : p.Contract) (now : ℕ) (holder : Address) (amountLD minAmountLD : ℕ)
    (dstEid : UInt32) : Option (p.Contract × ℕ × ℕ) :=
  match p.kind with
  | .wrapper => OFTWrapper.debit c now holder amountLD minAmountLD dstEid
  | .upgradeable => OFTWrapperUpgradeable.debit c now holder amountLD minAmountLD dstEid

/-- `_credit` of the contract. -/
def credit (c : p.Contract) (now : ℕ) (holder : Address) (amountLD : ℕ) (srcEid : UInt32) :
    Option (p.Contract × ℕ) :=
  match p.kind with
  | .wrapper => OFTWrapper.credit c holder amountLD srcEid
  | .upgradeable => OFTWrapperUpgradeable.credit c now holder amountLD srcEid

/-- `OFTCore.send`: one `_debit`, and the amount received in the message. -/
def send (c : p.Contract) (now : ℕ) (holder : Address) (amountLD minAmountLD : ℕ)
    (dstEid : UInt32) : Option (p.Contract × UInt64) := do
  let (c, _, amountReceivedLD) ← debit c now holder amountLD minAmountLD dstEid
  let amountSD ← p.deployment.core.toSD amountReceivedLD
  pure (c, amountSD)

/-- `OFTCore._lzReceive`: one `_credit` of the amount in the message. -/
def lzReceive (c : p.Contract) (now : ℕ) (packet : Packet) : Option p.Contract := do
  let (c, _) ← credit c now packet.sendTo (p.deployment.core.toLD packet.amountSD) packet.srcEid
  pure c

/-- A send has the token decrease what its message carries, within the bounds
that were asked for. -/
theorem token_send {c c' : p.Contract} {now amountLD minAmountLD : ℕ} {holder : Address}
    {dstEid : UInt32} {sd : UInt64}
    (h : send c now holder amountLD minAmountLD dstEid = some (c', sd)) :
    minAmountLD ≤ sd.toNat * p.rate ∧ sd.toNat * p.rate ≤ amountLD ∧
      p.deployment.paxosToken.decreaseSupplyFromAddress c.token (sd.toNat * p.rate) holder =
        some c'.token := by
  obtain ⟨⟨c₁, sent, received⟩, hdebit, hencode⟩ := Option.bind_eq_some_iff.mp h
  obtain ⟨sd', hsd, hpure⟩ := Option.bind_eq_some_iff.mp hencode
  obtain ⟨rfl, rfl⟩ := Prod.mk.injEq _ _ _ _ ▸ Option.some.inj hpure
  have hrun : Wrapper.debit c now holder amountLD minAmountLD dstEid =
      some (c₁, sent, received) := by
    rw [debit] at hdebit
    cases hkind : p.kind with
    | wrapper => rw [hkind] at hdebit; exact hdebit
    | upgradeable => rw [hkind] at hdebit; exact hdebit
  obtain ⟨rfl, hd⟩ := Wrapper.debited hrun
  have hexact : sd'.toNat * p.rate = received := by
    rw [← (p.deployment.core.toSD_eq_some _ _).mp hsd]
    exact Nat.div_mul_cancel hd.dvd
  rw [hexact]
  exact Wrapper.token_debit hrun

/-- What a send burns is what its message carries. -/
theorem supply_send {c c' : p.Contract} {now amountLD minAmountLD : ℕ} {holder : Address}
    {dstEid : UInt32} {sd : UInt64}
    (h : send c now holder amountLD minAmountLD dstEid = some (c', sd)) :
    c'.totalSupply + sd.toNat * p.rate = c.totalSupply :=
  p.deployment.paxosToken.decrease _ _ _ _ (token_send h).2.2

/-- A credit has the token increase what it is called with. -/
theorem token_credit {c c' : p.Contract} {now amountLD received : ℕ} {holder : Address}
    {srcEid : UInt32} (h : credit c now holder amountLD srcEid = some (c', received)) :
    p.deployment.paxosToken.increaseSupplyToAddress c.token amountLD holder = some c'.token := by
  rw [credit] at h
  cases hkind : p.kind with
  | wrapper => rw [hkind] at h; exact OFTWrapper.token_credit h
  | upgradeable => rw [hkind] at h; exact OFTWrapperUpgradeable.token_credit h

/-- What a delivery mints is what its message carries. -/
theorem supply_lzReceive {c c' : p.Contract} {now : ℕ} {packet : Packet}
    (h : lzReceive c now packet = some c') :
    c'.totalSupply = c.totalSupply + packet.amountSD.toNat * p.rate := by
  obtain ⟨⟨c₁, received⟩, hcredit, hpure⟩ := Option.bind_eq_some_iff.mp h
  obtain rfl := Option.some.inj hpure
  rw [← show p.deployment.core.toLD packet.amountSD = packet.amountSD.toNat * p.rate from
    p.deployment.core.toLD_eq _]
  exact p.deployment.paxosToken.increase _ _ _ _ (token_credit hcredit)

end Peer

/-! ## the mesh -/

/-- The peers of a mesh, the messages in flight, and what each peer has
burned by `_debit` and minted by `_credit` so far. -/
structure Mesh {ι : Type} (peer : ι → Peer) where
  contract : ∀ i, (peer i).Contract
  flight : List Packet
  burned : ι → ℕ
  minted : ι → ℕ

namespace Mesh

variable {ι : Type} [DecidableEq ι] {peer : ι → Peer}

/-- A mesh before any message. -/
def start (contract : ∀ i, (peer i).Contract) : Mesh peer := ⟨contract, [], fun _ => 0, fun _ => 0⟩

/-- A call at peer `i`.  One that reverts changes nothing, and neither does
the delivery of what is not in flight to `i`. -/
def step (m : Mesh peer) : (Σ i, Call (peer i)) → Mesh peer
  | ⟨i, .send now holder amountLD minAmountLD dstEid sendTo guid⟩ =>
      match Peer.send (m.contract i) now holder amountLD minAmountLD dstEid with
      | some (c, amountSD) => {
          contract := Function.update m.contract i c
          flight := ⟨(peer i).eid, dstEid, guid, sendTo, amountSD⟩ :: m.flight
          burned := Function.update m.burned i
            (m.burned i + ((m.contract i).totalSupply - c.totalSupply))
          minted := m.minted }
      | none => m
  | ⟨i, .lzReceive now packet⟩ =>
      if packet ∈ m.flight ∧ packet.dstEid = (peer i).eid then
        match Peer.lzReceive (m.contract i) now packet with
        | some c => {
            contract := Function.update m.contract i c
            flight := m.flight.erase packet
            burned := m.burned
            minted := Function.update m.minted i
              (m.minted i + (c.totalSupply - (m.contract i).totalSupply)) }
        | none => m
      else m
  | ⟨i, .other c⟩ => { m with contract := Function.update m.contract i c }

/-- The books of the mesh, in which a unit of value is a shared decimal. -/
def books (m : Mesh peer) : Books ι where
  rate i := (peer i).rate
  stake i := m.burned i - m.minted i
  flight := m.flight.map (·.amountSD.toNat)

/-- A step of a mesh is a step of its books. -/
theorem books_step (m : Mesh peer) (a : Σ i, Call (peer i)) :
    Books.Step m.books (m.step a).books := by
  obtain ⟨i, call⟩ := a
  cases call with
  | send now holder amountLD minAmountLD dstEid sendTo guid =>
      simp only [step]
      split
      · next c sd hsend =>
        have hsupply := Peer.supply_send hsend
        refine .of_stake (i := i) (δ := sd.toNat) (fun _ => rfl) (fun j hj => ?_) ?_
          (.send i sd.toNat)
        · simp only [books, Function.update_of_ne hj]
        · simp only [books, Function.update_self]
          rw [← hsupply, Nat.add_sub_cancel_left]
          push_cast
          omega
      · exact .stay
  | lzReceive now packet =>
      simp only [step]
      split
      · next hmem =>
        split
        · next c hreceive =>
          have hsupply := Peer.supply_lzReceive hreceive
          have hperm := (List.perm_cons_erase hmem.1).map (·.amountSD.toNat)
          refine .of_stake (i := i) (δ := -packet.amountSD.toNat) (fun _ => rfl) (fun j hj => ?_) ?_
            (.receive i packet.amountSD.toNat _ hperm)
          · simp only [books, Function.update_of_ne hj]
          · simp only [books, Function.update_self]
            rw [hsupply, Nat.add_sub_cancel_left]
            push_cast
            rw [neg_mul]
            omega
        · exact .stay
      · exact .stay
  | other c => exact .stay

/-! ## whole runs -/

theorem sound_start (contract : ∀ i, (peer i).Contract) : (start contract).books.Sound := by
  have hstake : ∀ i, (start contract).books.stake i = 0 := fun _ => rfl
  have hrate : ∀ i, (start contract).books.rate i ≠ 0 :=
    fun i => Int.natCast_ne_zero.mpr (peer i).deployment.core.rate_ne_zero
  refine ⟨Books.exact_of_stake_zero hrate hstake, ?_⟩
  rw [Books.net_of_stake_zero hstake rfl]
  exact .refl

/-- Conservation of supply.  In every state a mesh of wrappers reaches, the
supply they minted less what they burned is, in shared decimals, minus what
is in flight, and no division leaves a remainder. -/
theorem supply_conservation {ι : Type} [DecidableEq ι] [Fintype ι] (peer : ι → Peer)
    (contract : ∀ i, (peer i).Contract) (calls : List (Σ i, Call (peer i))) :
    let m := Run.final step (start contract) calls
    ∑ i, ((m.minted i : ℤ) - m.burned i) / (peer i).rate =
        -((m.flight.map (·.amountSD.toNat)).sum : ℕ) ∧
      ∀ i, ((peer i).rate : ℤ) ∣ (m.minted i : ℤ) - m.burned i := by
  intro m
  have hm : m.books.Sound :=
    Run.final_of_step (I := fun m : Mesh peer => m.books.Sound)
      (fun m a hm => (books_step m a).sound hm) (sound_start contract) calls
  have hdvd : ∀ i, ((peer i).rate : ℤ) ∣ (m.burned i : ℤ) - m.minted i := hm.exact.dvd
  have hsum : ∑ i, ((m.burned i : ℤ) - m.minted i) / (peer i).rate =
      ((m.flight.map (·.amountSD.toNat)).sum : ℕ) := hm.sum
  refine ⟨?_, fun i => by rw [← neg_sub]; exact (hdvd i).neg_right⟩
  rw [← hsum, ← Finset.sum_neg_distrib]
  refine Finset.sum_congr rfl fun i _ => ?_
  rw [← neg_sub, Int.neg_ediv_of_dvd (hdvd i)]

/-- A token of 18 decimals behind the one contract and one of 6 behind the
other. -/
def samplePeers : Bool → Peer
  | true => ⟨.wrapper, 30101, .sample 12⟩
  | false => ⟨.upgradeable, 30184, .sample 0⟩

def sampleContracts : ∀ i, (samplePeers i).Contract
  | true => ⟨FixedBytes.zero 20, fun _ => ⟨0, 0, 10 ^ 18, 60⟩, (10 ^ 15, fun _ => 10 ^ 15)⟩
  | false => ⟨FixedBytes.zero 20, fun _ => ⟨0, 0, 10 ^ 18, 60⟩, (0, fun _ => 0)⟩

/-- Two transfers are sent and the first of them arrives. -/
def sampleCalls : List (Σ i, Call (samplePeers i)) :=
  let holder := FixedBytes.zero 20
  let guid := FixedBytes.zero 32
  [⟨true, .send 100 holder 2000000000007 0 30184 holder guid⟩,
    ⟨true, .send 101 holder 3000000000000 0 30184 holder guid⟩,
    ⟨false, .lzReceive 105 ⟨30101, 30184, guid, holder, 2⟩⟩]

theorem supply_conservation_example :
    let m := Run.final step (start sampleContracts) sampleCalls
    m.burned true = 5000000000000 ∧ m.minted false = 2 ∧
      ∑ i, ((m.minted i : ℤ) - m.burned i) / (samplePeers i).rate = -3 := by
  intro m
  have hflight : m.flight.map (·.amountSD.toNat) = [3] := by decide +kernel
  have hsum := (supply_conservation samplePeers sampleContracts sampleCalls).1
  refine ⟨by decide +kernel, by decide +kernel, hsum.trans ?_⟩
  show -(((m.flight.map (·.amountSD.toNat)).sum : ℕ) : ℤ) = -3
  rw [hflight]
  rfl

end Mesh

end CrossChain.Evm
