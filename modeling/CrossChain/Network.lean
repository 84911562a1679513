import CrossChain.Evm.Mesh
import CrossChain.Solana.Escrow
import CrossChain.Solana.Mesh
import Mathlib.Data.Fintype.BigOperators

/-!
# CrossChain.Network

The whole bridge: stores of the Solana program and EVM wrappers that send to
one another, over one endpoint.

Both kinds of party write the same wire format, the store with `msg_codec`
and the wrapper with the `OFTMsgCodec` of its library.  The network is a
`Mesh` of stores whose flight the wrappers share, and its `Books` are the
books of the mesh extended by what each wrapper burned less what it minted.
-/

namespace CrossChain

/-- `OFTMsgCodec`, which writes and reads the messages of a wrapper.  Its code
is not part of the repository; what is relied on is its documented layout,
the one of `msg_codec`, and that an address is read back as it was written. -/
structure Evm.OFTMsgCodec where
  /-- `encode(_sendTo, _amountShared, _composeMsg)`, in a call by `sender` -/
  encode : FixedBytes 32 → UInt64 → Evm.Address → List UInt8 → List UInt8
  /-- `sendTo(_msg).bytes32ToAddress()` -/
  sendTo : List UInt8 → Option Evm.Address
  /-- `amountSD(_msg)` -/
  amountSD : List UInt8 → Option UInt64
  addressToBytes32 : Evm.Address → FixedBytes 32
  bytes32ToAddress : FixedBytes 32 → Evm.Address
  encode_eq : ∀ sendTo sd sender composeMsg, encode sendTo sd sender composeMsg =
    MsgCodec.encode sendTo sd (addressToBytes32 sender)
      (if composeMsg = [] then none else some composeMsg)
  sendTo_eq : ∀ message, sendTo message = (MsgCodec.sendTo message).map bytes32ToAddress
  amountSD_eq : ∀ message, amountSD message = MsgCodec.amountSd message
  bytes32ToAddress_addressToBytes32 : ∀ a, bytes32ToAddress (addressToBytes32 a) = a

/-- An instance to run on: an address is the last 20 of 32 bytes. -/
def Evm.OFTMsgCodec.sample : Evm.OFTMsgCodec :=
  let addressToBytes32 (a : Evm.Address) : FixedBytes 32 :=
    ⟨List.replicate 12 0 ++ a.val, by simp [a.property]⟩
  let bytes32ToAddress (b : FixedBytes 32) : Evm.Address :=
    ⟨b.val.drop 12, by simp [b.property]⟩
  { encode sendTo sd sender composeMsg := MsgCodec.encode sendTo sd (addressToBytes32 sender)
      (if composeMsg = [] then none else some composeMsg)
    sendTo message := (MsgCodec.sendTo message).map bytes32ToAddress
    amountSD := MsgCodec.amountSd
    addressToBytes32
    bytes32ToAddress
    encode_eq _ _ _ _ := rfl
    sendTo_eq _ := rfl
    amountSD_eq _ := rfl
    bytes32ToAddress_addressToBytes32 _ := Subtype.ext (List.drop_left' rfl) }

/-- The parties of a network: the stores, by `ι`, and the wrappers, by `κ`. -/
structure Sites (ι κ : Type) where
  env : ι → Externals
  eid : ι → UInt32
  codec : Evm.OFTMsgCodec
  peer : κ → Evm.Peer
  /-- the address of a wrapper, as 32 bytes -/
  address : κ → FixedBytes 32

/-- A call to a wrapper.  The endpoint takes a message to the peer that the
OApp has for the destination, whatever that is. -/
inductive WrapperCall (p : Evm.Peer) where
  | send (now : ℕ) (sender : Evm.Address) (amountLD minAmountLD : ℕ) (dstEid : UInt32)
      (sendTo : FixedBytes 32) (composeMsg : List UInt8) (receiver : FixedBytes 32) (nonce : UInt64)
      (guid : FixedBytes 32)
  | lzReceive (now : ℕ) (packet : Packet)
  /-- configuration, and whatever else changes the contract or its token -/
  | other (contract : p.Contract)

/-- What happens in a network. -/
inductive Action {ι κ : Type} (s : Sites ι κ) where
  | store (i : ι) (ev : Event)
  | wrapper (k : κ) (call : WrapperCall (s.peer k))

/-- The stores with the messages in flight, the wrappers, and what each
wrapper has burned by `_debit` and minted by `_credit` so far. -/
structure Network {ι κ : Type} (s : Sites ι κ) where
  mesh : Mesh ι
  contract : ∀ k, (s.peer k).Contract
  burned : κ → ℕ
  minted : κ → ℕ

namespace Network

variable {ι κ : Type} [DecidableEq ι] [DecidableEq κ] {s : Sites ι κ}

/-- A network before any message. -/
def start (node : ι → Node) (contract : ∀ k, (s.peer k).Contract) : Network s :=
  ⟨.start node, contract, fun _ => 0, fun _ => 0⟩

/-- `OFTCore._lzReceive` on the bytes of a message. -/
def receive (codec : Evm.OFTMsgCodec) {p : Evm.Peer} (c : p.Contract) (now : ℕ)
    (packet : Packet) : Option p.Contract := do
  let sendTo ← codec.sendTo packet.message
  let amountSD ← codec.amountSD packet.message
  Evm.Peer.lzReceive c now ⟨packet.srcEid, packet.dstEid, packet.guid, sendTo, amountSD⟩

/-- The endpoint hands a wrapper what is in flight to it. -/
def Receivable (m : Network s) (k : κ) (packet : Packet) : Prop :=
  packet ∈ m.mesh.flight ∧ packet.dstEid = (s.peer k).eid ∧ packet.receiver = s.address k

instance (m : Network s) (k : κ) (packet : Packet) : Decidable (m.Receivable k packet) :=
  inferInstanceAs (Decidable (_ ∧ _))

/-- An action at one of the parties.  A call that reverts changes nothing. -/
def step (m : Network s) : Action s → Network s
  | .store i ev => { m with mesh := m.mesh.step s.env s.eid (i, ev) }
  | .wrapper k (.send now sender amountLD minAmountLD dstEid sendTo composeMsg receiver nonce
      guid) =>
      match Evm.Peer.send (m.contract k) now sender amountLD minAmountLD dstEid with
      | some (c, amountSD) => {
          mesh := { m.mesh with flight := ⟨(s.peer k).eid, s.address k, dstEid, receiver, nonce,
            guid, s.codec.encode sendTo amountSD sender composeMsg⟩ :: m.mesh.flight }
          contract := Function.update m.contract k c
          burned := Function.update m.burned k
            (m.burned k + ((m.contract k).totalSupply - c.totalSupply))
          minted := m.minted }
      | none => m
  | .wrapper k (.lzReceive now packet) =>
      if m.Receivable k packet then
        match receive s.codec (m.contract k) now packet with
        | some c => {
            mesh := { m.mesh with flight := m.mesh.flight.erase packet }
            contract := Function.update m.contract k c
            burned := m.burned
            minted := Function.update m.minted k
              (m.minted k + (c.totalSupply - (m.contract k).totalSupply)) }
        | none => m
      else m
  | .wrapper k (.other c) => { m with contract := Function.update m.contract k c }

/-- The books of the wrappers. -/
def wrappers (m : Network s) : Books κ where
  rate k := (s.peer k).rate
  stake k := m.burned k - m.minted k
  flight := m.mesh.flight.map Packet.amountSd

/-- The books of the network, in which a unit of value is a shared decimal. -/
def books (m : Network s) : Books (ι ⊕ κ) := m.mesh.books.sum m.wrappers

/-! ## one action -/

/-- What a wrapper mints is what its message carries. -/
theorem supply_receive {codec : Evm.OFTMsgCodec} {p : Evm.Peer} {c c' : p.Contract} {now : ℕ}
    {packet : Packet} (h : receive codec c now packet = some c') :
    ∃ sd : UInt64, MsgCodec.amountSd packet.message = some sd ∧
      c'.totalSupply = c.totalSupply + sd.toNat * p.rate := by
  obtain ⟨sendTo, -, hrest⟩ := Option.bind_eq_some_iff.mp h
  obtain ⟨sd, hsd, hreceive⟩ := Option.bind_eq_some_iff.mp hrest
  exact ⟨sd, by rw [← codec.amountSD_eq, hsd], Evm.Peer.supply_lzReceive hreceive⟩

/-- The ways a call to wrapper `k` goes. -/
inductive Called (m : Network s) (k : κ) : WrapperCall (s.peer k) → Network s → Prop
  | sent {now : ℕ} {sender : Evm.Address} {amountLD minAmountLD : ℕ} {dstEid : UInt32}
      {sendTo : FixedBytes 32} {composeMsg : List UInt8} {receiver : FixedBytes 32} {nonce : UInt64}
      {guid : FixedBytes 32} {c : (s.peer k).Contract} {amountSD : UInt64}
      (run : Evm.Peer.send (m.contract k) now sender amountLD minAmountLD dstEid =
        some (c, amountSD)) :
      Called m k
        (.send now sender amountLD minAmountLD dstEid sendTo composeMsg receiver nonce guid) {
        mesh := { m.mesh with flight := ⟨(s.peer k).eid, s.address k, dstEid, receiver, nonce,
          guid, s.codec.encode sendTo amountSD sender composeMsg⟩ :: m.mesh.flight }
        contract := Function.update m.contract k c
        burned := Function.update m.burned k
          (m.burned k + ((m.contract k).totalSupply - c.totalSupply))
        minted := m.minted }
  | received {now : ℕ} {packet : Packet} {c : (s.peer k).Contract}
      (receivable : m.Receivable k packet)
      (run : receive s.codec (m.contract k) now packet = some c) :
      Called m k (.lzReceive now packet) {
        mesh := { m.mesh with flight := m.mesh.flight.erase packet }
        contract := Function.update m.contract k c
        burned := m.burned
        minted := Function.update m.minted k
          (m.minted k + (c.totalSupply - (m.contract k).totalSupply)) }
  | other (c : (s.peer k).Contract) :
      Called m k (.other c) { m with contract := Function.update m.contract k c }
  | notSent {now : ℕ} {sender : Evm.Address} {amountLD minAmountLD : ℕ} {dstEid : UInt32}
      {sendTo : FixedBytes 32} {composeMsg : List UInt8} {receiver : FixedBytes 32}
      {nonce : UInt64} {guid : FixedBytes 32}
      (run : Evm.Peer.send (m.contract k) now sender amountLD minAmountLD dstEid = none) :
      Called m k
        (.send now sender amountLD minAmountLD dstEid sendTo composeMsg receiver nonce guid) m
  | notReceived {now : ℕ} {packet : Packet}
      (run : m.Receivable k packet → receive s.codec (m.contract k) now packet = none) :
      Called m k (.lzReceive now packet) m

theorem called (m : Network s) (k : κ) (call : WrapperCall (s.peer k)) :
    Called m k call (m.step (.wrapper k call)) := by
  cases call with
  | send =>
      simp only [step]
      split
      · next hrun => exact .sent hrun
      · next hrun => exact .notSent hrun
  | lzReceive =>
      simp only [step]
      split
      · next hin =>
        split
        · next hrun => exact .received hin hrun
        · next hrun => exact .notReceived fun _ => hrun
      · next hout => exact .notReceived fun hin => absurd hin hout
  | other c => exact .other c

omit [DecidableEq ι] in
/-- A call to a wrapper is a step of the books of the wrappers. -/
theorem Called.wrappers {m m' : Network s} {k : κ} {call : WrapperCall (s.peer k)}
    (h : Called m k call m') : Books.Step m.wrappers m'.wrappers := by
  cases h with
  | sent run =>
      rename_i now sender amountLD minAmountLD dstEid sendTo composeMsg receiver nonce guid c sd
      have hsupply := Evm.Peer.supply_send run
      have hamount : (⟨(s.peer k).eid, s.address k, dstEid, receiver, nonce, guid,
          s.codec.encode sendTo sd sender composeMsg⟩ : Packet).amountSd = sd.toNat :=
        Mesh.amountSd_eq (by rw [s.codec.encode_eq, MsgCodec.amountSd_encode])
      refine .of_stake (i := k) (δ := sd.toNat) (fun _ => rfl) (fun j hj => ?_) ?_ ?_
      · simp only [Network.wrappers, Function.update_of_ne hj]
      · simp only [Network.wrappers, Function.update_self]
        rw [← hsupply, Nat.add_sub_cancel_left]
        push_cast
        omega
      · simp only [Network.wrappers, List.map_cons, hamount]
        exact .send k sd.toNat
  | received receivable run =>
      obtain ⟨sd, hsd, hsupply⟩ := supply_receive run
      have hperm := (List.perm_cons_erase receivable.1).map Packet.amountSd
      rw [List.map_cons, Mesh.amountSd_eq hsd] at hperm
      refine .of_stake (i := k) (δ := -sd.toNat) (fun _ => rfl) (fun j hj => ?_) ?_
        (.receive k sd.toNat _ hperm)
      · simp only [Network.wrappers, Function.update_of_ne hj]
      · simp only [Network.wrappers, Function.update_self]
        rw [hsupply, Nat.add_sub_cancel_left]
        push_cast
        rw [neg_mul]
        omega
  | other | notSent | notReceived => exact .stay

omit [DecidableEq ι] in
/-- A call to a wrapper leaves the stores as they are, and puts nothing in
flight but what carries an amount. -/
theorem Called.mesh {m m' : Network s} {k : κ} {call : WrapperCall (s.peer k)}
    (h : Called m k call m') (hm : m.mesh.Decodes) :
    m'.mesh = { m.mesh with flight := m'.mesh.flight } ∧ m'.mesh.Decodes := by
  cases h with
  | sent run =>
      refine ⟨rfl, List.forall_mem_cons.mpr ⟨?_, hm⟩⟩
      rw [s.codec.encode_eq, MsgCodec.amountSd_encode]
      rfl
  | received receivable run => exact ⟨rfl, fun p hp => hm p (List.mem_of_mem_erase hp)⟩
  | other | notSent | notReceived => exact ⟨rfl, hm⟩

/-- An action of a network is a step of its books. -/
theorem books_step (m : Network s) (a : Action s) (hm : m.mesh.Decodes) :
    Books.Step m.books (m.step a).books ∧ (m.step a).mesh.Decodes := by
  cases a with
  | store i ev =>
      have hmesh : Mesh.Stepped s.env s.eid m.mesh i _ _ _ := Mesh.stepped m.mesh i ev
      obtain ⟨hstep, hdecodes⟩ := hmesh.books rfl (Node.stepped _ _ _) hm
      exact ⟨hstep.inl _, hdecodes⟩
  | wrapper k call =>
      obtain ⟨hmesh, hdecodes⟩ := (called m k call).mesh hm
      have hflight : m.mesh.books.flight = m.wrappers.flight := rfl
      have hstep := Books.Step.inr hflight (called m k call).wrappers
      refine ⟨?_, hdecodes⟩
      rw [books, books, hmesh]
      exact hstep

/-! ## whole runs -/

/-- What every run of a network keeps. -/
structure Conserved (m : Network s) : Prop where
  books : m.books.Sound
  decodes : m.mesh.Decodes

theorem conserved_step (m : Network s) (a : Action s) (hm : m.Conserved) :
    (m.step a).Conserved := by
  obtain ⟨hbooks, hdecodes⟩ := books_step m a hm.decodes
  exact ⟨hbooks.sound hm.books, hdecodes⟩

theorem conserved_start {node : ι → Node} {contract : ∀ k, (s.peer k).Contract}
    (hinit : ∀ i, InitOFT.Created (s.env i) (node i)) :
    (start node contract : Network s).Conserved := by
  have hstake : ∀ j, (start node contract : Network s).books.stake j = 0 := by
    intro j
    cases j with
    | inl i =>
        simp only [books, Books.sum, Sum.elim_inl, Mesh.books, Mesh.stake, start, Mesh.start,
          (hinit i).tvlLd]
        split <;> rfl
    | inr k => rfl
  have hrate : ∀ j, (start node contract : Network s).books.rate j ≠ 0 := by
    intro j
    cases j with
    | inl i => exact Int.natCast_ne_zero.mpr (hinit i).rate_ne_zero
    | inr k => exact Int.natCast_ne_zero.mpr (s.peer k).deployment.core.rate_ne_zero
  refine ⟨⟨Books.exact_of_stake_zero hrate hstake, ?_⟩, by simp [Mesh.Decodes, start, Mesh.start]⟩
  rw [Books.net_of_stake_zero hstake rfl]
  exact .refl

variable [Fintype ι] [Fintype κ]

/-- The stakes of the two kinds of party, summed apart. -/
theorem Conserved.sum {m : Network s} (h : m.Conserved) :
    ∑ i, m.mesh.stake i / m.mesh.rate i +
        ∑ k, ((m.burned k : ℤ) - m.minted k) / (s.peer k).rate =
      ((m.mesh.flight.map Packet.amountSd).sum : ℕ) := by
  have hsum := h.books.sum
  rw [Fintype.sum_sum_type] at hsum
  exact hsum

/-- Conservation across both kinds of party.  In every state a network of
stores made by `init_oft` and of wrappers reaches, the value locked in the
adapters, plus what the native stores burned less what they minted, plus what
the wrappers burned less what they minted, is, in shared decimals, what is in
flight, and no division leaves a remainder. -/
theorem value_conservation {ι κ : Type} [DecidableEq ι] [Fintype ι] [DecidableEq κ] [Fintype κ]
    (s : Sites ι κ) (node : ι → Node) (contract : ∀ k, (s.peer k).Contract)
    (hinit : ∀ i, InitOFT.Created (s.env i) (node i)) (actions : List (Action s)) :
    let m := Run.final step (start node contract) actions
    ∑ i with (m.mesh.node i).store.oftType = .adapter,
          ((m.mesh.node i).store.tvlLd.toNat : ℤ) / (m.mesh.node i).store.ld2sdRate.toNat +
        ∑ i with (m.mesh.node i).store.oftType = .native,
          ((m.mesh.burned i : ℤ) - m.mesh.minted i) / (m.mesh.node i).store.ld2sdRate.toNat +
        ∑ k, ((m.burned k : ℤ) - m.minted k) / (s.peer k).rate =
      ((m.mesh.flight.map Packet.amountSd).sum : ℕ) ∧
    (∀ p ∈ m.mesh.flight, (MsgCodec.amountSd p.message).isSome) ∧
    (∀ i, (m.mesh.node i).store.oftType = .adapter →
      (m.mesh.node i).store.ld2sdRate.toNat ∣ (m.mesh.node i).store.tvlLd.toNat) ∧
    (∀ i, (m.mesh.node i).store.oftType = .native →
      ((m.mesh.node i).store.ld2sdRate.toNat : ℤ) ∣ (m.mesh.burned i : ℤ) - m.mesh.minted i) ∧
    ∀ k, ((s.peer k).rate : ℤ) ∣ (m.burned k : ℤ) - m.minted k := by
  intro m
  have hm : m.Conserved := Run.final_of_step conserved_step (conserved_start hinit) actions
  have hstore : ∀ i, m.mesh.rate i ∣ m.mesh.stake i := fun i => hm.books.exact.dvd (.inl i)
  refine ⟨?_, hm.decodes, fun i hadapter => ?_, fun i hnative => ?_,
    fun k => hm.books.exact.dvd (.inr k)⟩
  · rw [← Mesh.sum_stake]
    exact hm.sum
  · have hdvd := hstore i
    rw [Mesh.stake, Mesh.rate, if_pos hadapter] at hdvd
    exact Int.natCast_dvd_natCast.mp hdvd
  · have hdvd := hstore i
    rwa [Mesh.stake, Mesh.rate, if_neg (by rw [hnative]; decide)] at hdvd

/-- The stores of `Mesh.sampleStores` and a wrapper. -/
def sampleSites : Sites Bool Unit where
  env _ := .sample
  eid := Mesh.sampleEids
  codec := .sample
  peer _ := ⟨.upgradeable, 30110, .sample 12⟩
  address _ := Pubkey.ofByte 50

def sampleContracts : ∀ k, (sampleSites.peer k).Contract :=
  fun _ => ⟨FixedBytes.zero 20, fun _ => ⟨0, 0, 10 ^ 18, 60⟩, (0, fun _ => 0)⟩

/-- The adapter sends two transfers to the wrapper; the first arrives, and
part of it is sent back. -/
def sampleActions : List (Action sampleSites) :=
  let message := MsgCodec.encode (Pubkey.ofByte 22) 2000 .default none
  [.store true (.sample 0 (.sampleSetPeer 30110 (.peerAddress (Pubkey.ofByte 50)))),
    .store true (.sample 0 (.sampleSend 30110 2000500)),
    .store true (.sample 0 (.sampleSend 30110 1000000)),
    .wrapper () (.lzReceive 100 ⟨30168, Node.sampleKey, 30110, Pubkey.ofByte 50, 1,
      FixedBytes.zero 32, message⟩),
    .wrapper () (.send 101 (FixedBytes.zero 20) 500000000000007 0 30168 (Pubkey.ofByte 23) []
      Node.sampleKey 1 (FixedBytes.zero 32))]

theorem created_sampleStores (i : Bool) : InitOFT.Created .sample (Mesh.sampleStores i) := by
  cases i with
  | true =>
      exact ⟨.sample, .sample 5000000 .default none, .sample, [], ⟨.adapter, .ofByte 13, 6, none⟩,
        rfl⟩
  | false =>
      exact ⟨.sample, .sample 0 Node.sampleKey none, .sample, [], ⟨.native, .ofByte 13, 6, none⟩,
        rfl⟩

theorem value_conservation_example :
    let m := Run.final step (start Mesh.sampleStores sampleContracts) sampleActions
    (m.mesh.node true).store.tvlLd = 3000000 ∧ m.minted () = 2000000000000000 ∧
      ∑ i with (m.mesh.node i).store.oftType = .adapter,
          ((m.mesh.node i).store.tvlLd.toNat : ℤ) / (m.mesh.node i).store.ld2sdRate.toNat +
        ∑ i with (m.mesh.node i).store.oftType = .native,
          ((m.mesh.burned i : ℤ) - m.mesh.minted i) / (m.mesh.node i).store.ld2sdRate.toNat +
        ∑ k, ((m.burned k : ℤ) - m.minted k) / (sampleSites.peer k).rate = 1500 := by
  intro m
  have hflight : m.mesh.flight.map Packet.amountSd = [500, 1000] := by decide +kernel
  have hsum :=
    (value_conservation sampleSites Mesh.sampleStores sampleContracts created_sampleStores
      sampleActions).1
  refine ⟨by decide +kernel, by decide +kernel, hsum.trans ?_⟩
  show (((m.mesh.flight.map Packet.amountSd).sum : ℕ) : ℤ) = 1500
  rw [hflight]
  rfl

end Network

end CrossChain
