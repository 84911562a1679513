import CrossChain.Network
import CrossChain.Solana.Delivery

/-!
# CrossChain.Transfers

What the messages of a network mean, and that each is carried out once.

A `Transfer` says who is paid how much and which call comes with it.  It is
read off a step at either end: from what the sender asked for and signed
(`sent`), and from what the recipient was told, or what `_credit` was called
with (`received`).  The codecs between the two are injective, so the network
refines a bag of transfers: what was received and what is in flight is what
was sent.  Whose balance a transfer leaves, and whose it reaches, is `Charged`
and `Paid`.
-/

namespace CrossChain

/-- A transfer, with the addresses its message travels by. -/
structure Transfer where
  srcEid : UInt32
  sender : FixedBytes 32
  dstEid : UInt32
  receiver : FixedBytes 32
  nonce : UInt64
  guid : FixedBytes 32
  sendTo : FixedBytes 32
  amountSd : UInt64
  /-- who composed, and what -/
  composed : Option (FixedBytes 32 × List UInt8)
  deriving DecidableEq, Repr

namespace Transfer

/-- The message of a transfer. -/
def message (t : Transfer) : List UInt8 :=
  MsgCodec.encode t.sendTo t.amountSd ((t.composed.map (·.1)).getD .default) (t.composed.map (·.2))

/-- The packet that carries it. -/
def packet (t : Transfer) : Packet :=
  ⟨t.srcEid, t.sender, t.dstEid, t.receiver, t.nonce, t.guid, t.message⟩

end Transfer

/-- The call that the compose part of a message asks for. -/
def MsgCodec.composed (payload : List UInt8) : Option (FixedBytes 32 × List UInt8) :=
  (Bytes.slice payload 0 32).map fun sender => (sender, payload.drop 32)

/-- The transfer a packet carries. -/
def Packet.transfer (p : Packet) : Option Transfer := do
  let sendTo ← MsgCodec.sendTo p.message
  let amountSd ← MsgCodec.amountSd p.message
  let transfer (composed : Option (FixedBytes 32 × List UInt8)) : Transfer :=
    ⟨p.srcEid, p.sender, p.dstEid, p.receiver, p.nonce, p.guid, sendTo, amountSd, composed⟩
  match MsgCodec.composeMsg p.message with
  | none => pure (transfer none)
  | some payload => do
      let composed ← MsgCodec.composed payload
      pure (transfer (some composed))

theorem MsgCodec.composed_append (sender : FixedBytes 32) (msg : List UInt8) :
    composed (sender.val ++ msg) = some (sender, msg) := by
  have hslice := Bytes.slice_append [] sender msg
  rw [List.nil_append, List.length_nil] at hslice
  rw [composed, hslice, Option.map_some, List.drop_left' sender.property]

theorem Transfer.sendTo_message (t : Transfer) : MsgCodec.sendTo t.message = some t.sendTo :=
  MsgCodec.sendTo_encode _ _ _ _

theorem Transfer.amountSd_message (t : Transfer) : MsgCodec.amountSd t.message = some t.amountSd :=
  MsgCodec.amountSd_encode _ _ _ _

theorem Transfer.composeMsg_message (t : Transfer) :
    MsgCodec.composeMsg t.message = t.composed.map fun c => c.1.val ++ c.2 := by
  rw [message, MsgCodec.composeMsg_encode]
  cases t.composed <;> rfl

/-- A packet reads back as the transfer it carries. -/
theorem Transfer.transfer_packet (t : Transfer) : t.packet.transfer = some t := by
  have hsend := t.sendTo_message
  have hsd := t.amountSd_message
  have hcompose := t.composeMsg_message
  unfold Packet.transfer
  simp only [packet, hsend, hsd, hcompose]
  obtain ⟨srcEid, sender, dstEid, receiver, nonce, guid, sendTo, amountSd, composed⟩ := t
  cases composed with
  | none => rfl
  | some c =>
      simp only [Option.map_some, MsgCodec.composed_append]
      rfl

/-! ## the two ends -/

namespace Node

/-- The transfer that the signer of a send asks for, and the endpoint takes. -/
def transferSent (env : Externals) (eid : UInt32) (n : Node) (ev : Event) : Option Transfer :=
  match ev with
  | .tx ⟨_, _, .send acc _ _⟩ =>
      (sends env (n, ev)).map fun (params, out, receipt) => {
        srcEid := eid
        sender := n.key
        dstEid := params.dstEid
        receiver := out.request.receiver
        nonce := receipt.nonce
        guid := receipt.guid
        sendTo := params.toAddress
        amountSd := UInt64.ofNat (out.receipt.amountReceivedLd.toNat / n.store.ld2sdRate.toNat)
        composed := params.composeMsg.map fun msg => (acc.signer.pubkey, msg) }
  | _ => none

/-- The call that a composed receiver reads off its compose message. -/
def composedOf (c : SendComposeParams) : FixedBytes 32 × List UInt8 :=
  ((ComposeMsgCodec.composeFrom c.message).getD (FixedBytes.zero 32),
    ComposeMsgCodec.composeMsg c.message)

/-- The transfer that a delivery tells of, in its event and its compose
message. -/
def transferReceived (env : Externals) (eid : UInt32) (n : Node) (ev : Event) : Option Transfer :=
  (receives env (n, ev)).map fun (params, out) => {
    srcEid := out.event.srcEid
    sender := params.sender
    dstEid := eid
    receiver := n.key
    nonce := params.nonce
    guid := out.event.guid
    sendTo := out.event.toAddress
    amountSd := (MsgCodec.amountSd params.message).getD 0
    composed := out.compose.map composedOf }

/-- What a send took for a transfer: the amount it reports as sent, from the
token account of its signer, who is also the caller of what is composed. -/
structure Debits (n n' : Node) (acc : Send.Accounts) (params : SendParams) (out : Send.Outcome)
    (t : Transfer) : Prop where
  signed : acc.signer.isSigner
  caller : ∀ c ∈ t.composed, c.1 = acc.signer.pubkey
  owner : n.tokens.hands acc.tokenSource.pubkey = some acc.signer.pubkey
  received : t.amountSd.toNat * n.store.ld2sdRate.toNat = out.receipt.amountReceivedLd.toNat
  slippage : params.minAmountLd ≤ out.receipt.amountReceivedLd
  covered : out.receipt.amountReceivedLd ≤ out.receipt.amountSentLd
  asked : out.receipt.amountSentLd ≤ params.amountLd
  debited : acc.tokenSource.pubkey ≠ n.store.tokenEscrow →
    n'.tokens.balance acc.tokenSource.pubkey + out.receipt.amountSentLd.toNat =
      n.tokens.balance acc.tokenSource.pubkey
  other : acc.tokenSource.pubkey ≠ n.store.tokenEscrow → ∀ k, k ≠ acc.tokenSource.pubkey →
    k ≠ n.store.tokenEscrow → n'.tokens.balance k = n.tokens.balance k

/-- A transfer that was sent: it goes to the peer, its amount was locked or
burned, and its signer paid for it. -/
structure Charged (env : Externals) (n : Node) (ev : Event) (n' : Node) (t : Transfer) :
    Prop where
  sender : t.sender = n.key
  receiver : ∃ peer, n.peers t.dstEid = some peer ∧ peer.peerAddress = t.receiver
  running : n.store.paused = false
  adapter : n.store.oftType = .adapter → n'.store.tvlLd.toNat =
    n.store.tvlLd.toNat + t.amountSd.toNat * n.store.ld2sdRate.toNat
  native : n.store.oftType = .native →
    n'.tokens.mint.supply.toNat + t.amountSd.toNat * n.store.ld2sdRate.toNat =
      n.tokens.mint.supply.toNat
  debits : ∃ clock endpoint acc remaining params out receipt,
    ev = .tx ⟨clock, endpoint, .send acc remaining params⟩ ∧
      sends env (n, ev) = some (params, out, receipt) ∧ Debits n n' acc params out t

/-- A transfer that was received: it comes from the peer, and its amount was
moved out of the escrow or minted, and credited to the token account of the
recipient that it names, less what the mint withholds of a move. -/
structure Paid (env : Externals) (n : Node) (ev : Event) (n' : Node) (t : Transfer) : Prop where
  receiver : t.receiver = n.key
  sender : ∃ peer, n.peers t.srcEid = some peer ∧ peer.peerAddress = t.sender
  running : n.store.paused = false
  adapter : n.store.oftType = .adapter →
    n'.store.tvlLd.toNat + t.amountSd.toNat * n.store.ld2sdRate.toNat = n.store.tvlLd.toNat
  native : n.store.oftType = .native → n'.tokens.mint.supply.toNat =
    n.tokens.mint.supply.toNat + t.amountSd.toNat * n.store.ld2sdRate.toNat
  credited : ∃ tx, ev = .tx tx ∧
    (LzReceive.destOf env n t.sendTo ≠ n.store.tokenEscrow →
      n'.tokens.balance (LzReceive.destOf env n t.sendTo) =
        n.tokens.balance (LzReceive.destOf env n t.sendTo) +
          LzReceive.arriving n tx.clock.epoch (t.amountSd.toNat * n.store.ld2sdRate.toNat))
  debited : n.store.oftType = .adapter → LzReceive.destOf env n t.sendTo ≠ n.store.tokenEscrow →
    n'.tokens.balance n.store.tokenEscrow + t.amountSd.toNat * n.store.ld2sdRate.toNat =
      n.tokens.balance n.store.tokenEscrow
  other : ∀ k, k ≠ LzReceive.destOf env n t.sendTo →
    (n.store.oftType = .adapter → k ≠ n.store.tokenEscrow) →
    n'.tokens.balance k = n.tokens.balance k

variable {env : Externals} {eid : UInt32} {n n' : Node} {ev : Event}

theorem transferSent_eq_none (h : sends env (n, ev) = none) : transferSent env eid n ev = none := by
  unfold transferSent
  split
  · rw [h, Option.map_none]
  · rfl

theorem exists_sends {t : Transfer} (h : transferSent env eid n ev = some t) :
    ∃ r, sends env (n, ev) = some r := by
  cases hs : sends env (n, ev) with
  | some r => exact ⟨r, rfl⟩
  | none =>
      rw [transferSent_eq_none hs] at h
      contradiction

theorem transferReceived_eq_none (h : receives env (n, ev) = none) :
    transferReceived env eid n ev = none := by
  rw [transferReceived, h, Option.map_none]

/-- A send takes what it reports from its signer's token account. -/
theorem debits {clock : Clock} {endpoint : Endpoint} {acc : Send.Accounts}
    {remaining : List LzAccount} {params : SendParams} {out : Send.Outcome}
    {receipt : MessagingReceipt} {peer : PeerConfig} {outbound inbound : Option RateLimiter}
    {t : Transfer}
    (run : sends env (n, .tx ⟨clock, endpoint, .send acc remaining params⟩) =
      some (params, out, receipt))
    (hp : Send.Prepared env clock n acc params out peer outbound inbound)
    (hcaller : ∀ c ∈ t.composed, c.1 = acc.signer.pubkey)
    (hreceived : t.amountSd.toNat * n.store.ld2sdRate.toNat =
      out.receipt.amountReceivedLd.toNat) : Debits n out.node acc params out t := by
  have hcharged := charged hp.amounts
  obtain ⟨withheld, hsum, -⟩ := hcharged.exists_withheld
  refine ⟨hp.signed, hcaller, (hands_of_sends run).1, hreceived, hp.slippage,
    UInt64.le_iff_toNat_le.mpr (by omega), UInt64.le_iff_toNat_le.mpr hcharged.sent_le, ?_, ?_⟩
  · intro hapart
    have hbalance := hp.taken.balance hp.escrow hapart acc.tokenSource.pubkey
    rw [if_pos rfl] at hbalance
    omega
  · intro hapart k hk hescrow
    have hbalance := hp.taken.balance hp.escrow hapart k
    rw [if_neg hk, if_neg hescrow] at hbalance
    omega

/-- A send puts on the wire the transfer its signer asked for. -/
theorem Stepped.transferSent {params : SendParams} {out : Send.Outcome}
    {receipt : MessagingReceipt} (eid : UInt32) (h : Stepped env n ev n')
    (hs : sends env (n, ev) = some (params, out, receipt)) :
    ∃ t, transferSent env eid n ev = some t ∧ Charged env n ev n' t ∧
      t.packet = ⟨eid, n.key, out.request.dstEid, out.request.receiver, receipt.nonce,
        receipt.guid, out.request.message⟩ := by
  obtain ⟨sd, hsd, -, hadapter, hnative⟩ := h.sent hs
  cases h with
  | send run hp =>
      rename_i clock endpoint acc remaining params' out' receipt' peer outbound inbound
      obtain ⟨rfl, rfl, rfl⟩ : params' = params ∧ out' = out ∧ receipt' = receipt := by
        simpa only [Option.some.injEq, Prod.mk.injEq] using run.symm.trans hs
      obtain ⟨sd', hquot, hmessage⟩ := hp.message
      obtain rfl : sd' = sd := by
        rw [hmessage, MsgCodec.amountSd_encode] at hsd
        exact Option.some.inj hsd
      have hamount : UInt64.ofNat
          (out'.receipt.amountReceivedLd.toNat / n.store.ld2sdRate.toNat) = sd' := by
        rw [hquot, UInt64.ofNat_toNat]
      have hexact : sd'.toNat * n.store.ld2sdRate.toNat =
          out'.receipt.amountReceivedLd.toNat := by
        rw [← hquot]
        exact Nat.div_mul_cancel (charged hp.amounts).dvd_received
      refine ⟨_, by rw [Node.transferSent, run, Option.map_some], ?_, ?_⟩
      · refine ⟨rfl, ⟨peer, hp.found, hp.receiver.symm⟩, hp.running, ?_, ?_, clock, endpoint, acc,
          remaining, params', out', receipt', rfl, run, debits run hp ?_ ?_⟩
        · simpa only [hamount] using hadapter
        · simpa only [hamount] using hnative
        · intro c hc
          obtain ⟨msg, -, rfl⟩ := Option.map_eq_some_iff.mp hc
          rfl
        · simpa only [hamount] using hexact
      · simp only [Transfer.packet, Transfer.message, hamount, hmessage, hp.dstEid,
          Packet.mk.injEq, true_and]
        rw [MsgCodec.encode_eq_encode_iff]
        cases params'.composeMsg <;> simp
  | idle h => rw [h.sends] at hs; contradiction
  | lzReceive | setOftConfig | setPeerConfig | setPause | withdrawFee | external => contradiction

/-- What a composed receiver reads is what was composed. -/
theorem composedOf_encode (toAddress : Pubkey) (guid : FixedBytes 32) (nonce : UInt64)
    (srcEid : UInt32) (amountLd : UInt64) (c : FixedBytes 32 × List UInt8) :
    composedOf ⟨toAddress, guid, 0,
      ComposeMsgCodec.encode nonce srcEid amountLd (c.1.val ++ c.2)⟩ = c := by
  rw [composedOf, ComposeMsgCodec.composeFrom_encode, ComposeMsgCodec.composeMsg_encode]
  rfl

/-- What a release pays to an account other than the escrow, it takes from the
escrow or mints, and no other balance changes. -/
theorem balances_of_released {opened tokens : Tokens} {acc : LzReceive.Accounts} {clock : Clock}
    {amountLd tvlLd received : UInt64}
    (h : LzReceive.Released n opened acc clock amountLd tvlLd tokens received)
    (hopened : n.tokens.Opened opened) (hescrow : acc.tokenEscrow.pubkey = n.store.tokenEscrow) :
    (acc.tokenDest.pubkey ≠ n.store.tokenEscrow →
      tokens.balance acc.tokenDest.pubkey = n.tokens.balance acc.tokenDest.pubkey +
        LzReceive.arriving n clock.epoch amountLd.toNat) ∧
    (n.store.oftType = .adapter → acc.tokenDest.pubkey ≠ n.store.tokenEscrow →
      tokens.balance n.store.tokenEscrow + amountLd.toNat =
        n.tokens.balance n.store.tokenEscrow) ∧
    ∀ k, k ≠ acc.tokenDest.pubkey → (n.store.oftType = .adapter → k ≠ n.store.tokenEscrow) →
      tokens.balance k = n.tokens.balance k := by
  have hbalance := h.balance hopened hescrow
  cases htype : n.store.oftType with
  | adapter =>
      simp only [htype, if_true, Tokens.flow] at hbalance
      refine ⟨fun hapart => ?_, fun _ hapart => ?_, fun k hk hkescrow => ?_⟩
      · have hdest := hbalance acc.tokenDest.pubkey
        rw [if_neg hapart.symm, if_neg hapart, if_pos rfl] at hdest
        simp only [LzReceive.arriving, htype]
        omega
      · have hsource := hbalance n.store.tokenEscrow
        rw [if_neg hapart.symm, if_pos rfl] at hsource
        omega
      · have hother := hbalance k
        rw [if_neg (hkescrow rfl), if_neg hk, ite_self, add_zero] at hother
        exact Int.ofNat_inj.mp hother
  | native =>
      have htype' : ¬ OFTType.native = OFTType.adapter := by decide
      simp only [htype, if_neg htype'] at hbalance
      refine ⟨fun _ => ?_, fun hadapter => absurd hadapter htype', fun k hk _ => ?_⟩
      · have hdest := hbalance acc.tokenDest.pubkey
        rw [if_pos rfl] at hdest
        simp only [LzReceive.arriving, htype]
        omega
      · have hother := hbalance k
        rw [if_neg hk, add_zero] at hother
        exact Int.ofNat_inj.mp hother

/-- A delivery tells of the transfer its message carries, and carries it out. -/
theorem Stepped.transferReceived {params : LzReceiveParams} {out : LzReceive.Outcome}
    {t : Transfer} (h : Stepped env n ev n') (hr : receives env (n, ev) = some (params, out))
    (ht : out.clear.packet eid = t.packet) :
    transferReceived env eid n ev = some t ∧ Paid env n ev n' t := by
  obtain ⟨clock, endpoint, accounts, rfl, happly⟩ := receives_eq_some hr
  obtain ⟨sd, hsd, hadapter, hnative⟩ := h.received hr
  obtain ⟨acc, remaining, -, hdeliver⟩ := LzReceive.apply_eq_ok happly
  obtain ⟨⟨peer', tokens⟩, hacc, -⟩ := Except.bind_eq_ok.mp hdeliver
  obtain ⟨peer, outbound, inbound, opened, amountSd, amountLd, hd⟩ := LzReceive.delivered hdeliver
  have hnode : n' = out.node := by
    cases h with
    | lzReceive run list h =>
        exact congrArg (·.2.node) (Option.some.inj (run.symm.trans hr))
    | idle h => rw [h.receives] at hr; contradiction
  rw [hd.clear] at ht hsd
  obtain ⟨hsrc, hsender, hdst, hreceiver, hnonce, hguid, hmessage⟩ := Packet.mk.inj ht
  simp only at hsrc hsender hreceiver hnonce hguid hmessage hsd
  have hto : acc.toAddress.pubkey = t.sendTo := by
    have hread := LzReceive.sendTo_of_tryAccounts hacc
    rw [hmessage, t.sendTo_message] at hread
    exact (Option.some.inj hread).symm
  obtain rfl : t.amountSd = sd := by
    rw [hmessage, t.amountSd_message] at hsd
    exact Option.some.inj hsd
  have hcomposed : out.compose.map composedOf = t.composed := by
    rw [hd.compose, hmessage, t.composeMsg_message, Option.map_map, Option.map_map]
    cases t.composed with
    | none => rfl
    | some c => exact congrArg some (composedOf_encode _ _ _ _ _ c)
  have hdest : acc.tokenDest.pubkey = LzReceive.destOf env n t.sendTo := by
    obtain ⟨sendTo, hread, hdest⟩ := (LzReceive.constrained hacc).dest
    rw [hmessage, t.sendTo_message, Option.some.injEq] at hread
    rw [hdest, ← hread, LzReceive.destOf]
  have hscaled : amountLd.toNat = t.amountSd.toNat * n.store.ld2sdRate.toNat := by
    have hdecoded := hd.decoded
    rw [hmessage, t.amountSd_message, Option.some.injEq] at hdecoded
    rw [← hd.scaled, ← hdecoded]
  obtain ⟨hcredited, hdebited, hother⟩ := balances_of_released hd.released hd.opens hd.escrow
  rw [hdest, hscaled] at hcredited hdebited
  rw [hdest] at hother
  subst hnode
  refine ⟨?_, hreceiver.symm, ⟨peer, ?_, ?_⟩, hd.running, hadapter, hnative, ⟨_, rfl, hcredited⟩,
    hdebited, hother⟩
  · have hevent : out.event.srcEid = t.srcEid ∧ out.event.guid = t.guid ∧
        out.event.toAddress = t.sendTo := by
      rw [hd.event]
      exact ⟨hsrc, hguid, hto⟩
    simp only [Node.transferReceived, hr, Option.map_some, hcomposed, hevent, hsender, hdst,
      hreceiver, hnonce, hsd, Option.getD_some]
  · rw [← hsrc]; exact hd.found
  · rw [← hsender]; exact hd.sender

end Node

namespace Network

variable {ι κ : Type} [DecidableEq ι] [DecidableEq κ] {s : Sites ι κ}

/-- The transfer that a step sends, if any. -/
def sent : Network s × Action s → Option Transfer
  | (m, .store i ev) =>
      Node.transferSent (s.env i) (s.eid i) (m.mesh.node i) (ev.clearing m.mesh.flight (s.eid i))
  | (m, .wrapper k (.send now sender amountLD minAmountLD dstEid sendTo composeMsg receiver nonce
      guid)) =>
      (Evm.Peer.send (m.contract k) now sender amountLD minAmountLD dstEid).map fun (_, amountSd) =>
        { srcEid := (s.peer k).eid
          sender := s.address k
          dstEid, receiver, nonce, guid, sendTo, amountSd
          composed := if composeMsg = [] then none
            else some (s.codec.addressToBytes32 sender, composeMsg) }
  | (_, .wrapper _ _) => none

/-- What `OFTCore._lzReceive` calls `_credit` with: to whom, how much, and from
where. -/
def creditCall (codec : Evm.OFTMsgCodec) (p : Evm.Peer) (packet : Packet) :
    Option (Evm.Address × ℕ × UInt32) := do
  let sendTo ← codec.sendTo packet.message
  let amountSD ← codec.amountSD packet.message
  pure (sendTo, p.deployment.core.toLD amountSD, packet.srcEid)

theorem receive_eq (codec : Evm.OFTMsgCodec) {p : Evm.Peer} (c : p.Contract) (now : ℕ)
    (packet : Packet) : receive codec c now packet =
      (creditCall codec p packet).bind fun (holder, amountLD, srcEid) =>
        (Evm.Peer.credit c now holder amountLD srcEid).map (·.1) := by
  rw [receive, creditCall]
  cases codec.sendTo packet.message with
  | none => rfl
  | some sendTo =>
      cases codec.amountSD packet.message with
      | none => rfl
      | some amountSD => exact Option.map_eq_bind.symm

/-- The transfer that a step receives, if any.  A wrapper receives the
transfer that it calls `_credit` for. -/
def received : Network s × Action s → Option Transfer
  | (m, .store i ev) =>
      Node.transferReceived (s.env i) (s.eid i) (m.mesh.node i)
        (ev.clearing m.mesh.flight (s.eid i))
  | (m, .wrapper k (.lzReceive now packet)) =>
      if m.Receivable k packet ∧ (receive s.codec (m.contract k) now packet).isSome then
        packet.transfer.filter fun t => creditCall s.codec (s.peer k) packet =
          some (s.codec.bytes32ToAddress t.sendTo, t.amountSd.toNat * (s.peer k).rate, t.srcEid)
      else none
  | (_, .wrapper _ _) => none

/-- The balances of the wrappers' tokens. -/
abbrev Ledgers (s : Sites ι κ) := ∀ k, (s.peer k).deployment.paxosToken.Ledger

/-- What sending a transfer took, and from whom: at a wrapper, the amount in
local decimals from the caller. -/
def Charged (ledger : Ledgers s) : Network s × Action s → Transfer → Prop
  | (m, .store i ev), t => t.srcEid = s.eid i ∧ Node.Charged (s.env i) (m.mesh.node i)
      (ev.clearing m.mesh.flight (s.eid i)) ((m.step (.store i ev)).mesh.node i) t
  | (m, .wrapper k (.send now sender amountLD minAmountLD dstEid sendTo composeMsg receiver nonce
      guid)), t =>
      let call := .send now sender amountLD minAmountLD dstEid sendTo composeMsg receiver nonce guid
      t.srcEid = (s.peer k).eid ∧ t.sender = s.address k ∧
        (∀ c ∈ t.composed, s.codec.bytes32ToAddress c.1 = sender) ∧
        minAmountLD ≤ t.amountSd.toNat * (s.peer k).rate ∧
        t.amountSd.toNat * (s.peer k).rate ≤ amountLD ∧
        Evm.Burns (ledger k) (m.contract k) ((m.step (.wrapper k call)).contract k) sender
          (t.amountSd.toNat * (s.peer k).rate)
  | (_, .wrapper _ _), _ => False

/-- What receiving a transfer gave, and to whom: at a wrapper, the amount in
local decimals to the address that the transfer names. -/
def Paid (ledger : Ledgers s) : Network s × Action s → Transfer → Prop
  | (m, .store i ev), t => t.dstEid = s.eid i ∧ Node.Paid (s.env i) (m.mesh.node i)
      (ev.clearing m.mesh.flight (s.eid i)) ((m.step (.store i ev)).mesh.node i) t
  | (m, .wrapper k (.lzReceive now packet)), t =>
      t.dstEid = (s.peer k).eid ∧ t.receiver = s.address k ∧
        Evm.Mints (ledger k) (m.contract k)
          ((m.step (.wrapper k (.lzReceive now packet))).contract k)
          (s.codec.bytes32ToAddress t.sendTo) (t.amountSd.toNat * (s.peer k).rate)
  | (_, .wrapper _ _), _ => False

/-- The transfers in flight. -/
def inFlight (m : Network s) : List Transfer := m.mesh.flight.filterMap Packet.transfer

/-- Every message in flight is one of a transfer. -/
def Carries (m : Network s) : Prop := ∀ p ∈ m.mesh.flight, ∃ t : Transfer, p = t.packet

omit [DecidableEq ι] [DecidableEq κ] in
theorem Carries.flight_eq {m : Network s} (h : m.Carries) :
    m.mesh.flight = m.inFlight.map Transfer.packet := by
  have hread : ∀ flight : List Packet, (∀ p ∈ flight, ∃ t : Transfer, p = t.packet) →
      flight = (flight.filterMap Packet.transfer).map Transfer.packet := by
    intro flight hflight
    induction flight with
    | nil => rfl
    | cons p flight ih =>
        rw [List.forall_mem_cons] at hflight
        obtain ⟨⟨t, rfl⟩, hrest⟩ := hflight
        rw [List.filterMap_cons_some t.transfer_packet, List.map_cons, ← ih hrest]
  exact hread _ h

/-- What a step does to the bag of transfers in flight. -/
structure Carried (m : Network s) (a : Action s) : Prop where
  carries : (m.step a).Carries
  perm : ((m.step a).inFlight ++ (received (m, a)).toList).Perm
    (m.inFlight ++ (sent (m, a)).toList)
  mem : ∀ t, received (m, a) = some t → t ∈ m.inFlight

/-! ## one step -/

theorem transfers_cons (t : Transfer) (flight : List Packet) :
    ((t.packet :: flight).filterMap Packet.transfer).Perm
      (flight.filterMap Packet.transfer ++ [t]) := by
  rw [List.filterMap_cons_some t.transfer_packet]
  exact (List.perm_append_singleton t _).symm

theorem transfers_erase {t : Transfer} {flight : List Packet} (h : t.packet ∈ flight) :
    ((flight.erase t.packet).filterMap Packet.transfer ++ [t]).Perm
      (flight.filterMap Packet.transfer) :=
  (transfers_cons t _).symm.trans ((List.perm_cons_erase h).symm.filterMap _)

/-- A step that puts the packet of a transfer in flight, and does nothing
else to the bag. -/
theorem carried_of_sent {m : Network s} {a : Action s} {t : Transfer} (hm : m.Carries)
    (hflight : (m.step a).mesh.flight = t.packet :: m.mesh.flight)
    (hsent : sent (m, a) = some t) (hreceived : received (m, a) = none) : Carried m a where
  carries := by
    rw [Carries, hflight]
    exact List.forall_mem_cons.mpr ⟨⟨t, rfl⟩, hm⟩
  perm := by
    rw [hsent, hreceived, inFlight, hflight, Option.toList_none, List.append_nil]
    exact transfers_cons t _
  mem t' ht' := by rw [hreceived] at ht'; contradiction

/-- A step that takes it out of flight. -/
theorem carried_of_received {m : Network s} {a : Action s} {t : Transfer} (hm : m.Carries)
    (hmem : t.packet ∈ m.mesh.flight)
    (hflight : (m.step a).mesh.flight = m.mesh.flight.erase t.packet)
    (hsent : sent (m, a) = none) (hreceived : received (m, a) = some t) : Carried m a where
  carries := by
    rw [Carries, hflight]
    exact fun p hp => hm p (List.mem_of_mem_erase hp)
  perm := by
    rw [hsent, hreceived, inFlight, hflight, Option.toList_none, List.append_nil]
    exact transfers_erase hmem
  mem t' ht' := by
    obtain rfl := Option.some.inj (hreceived.symm.trans ht')
    exact List.mem_filterMap.mpr ⟨t.packet, hmem, t.transfer_packet⟩

theorem carried_of_rest {m : Network s} {a : Action s} (hm : m.Carries)
    (hflight : (m.step a).mesh.flight = m.mesh.flight) (hsent : sent (m, a) = none)
    (hreceived : received (m, a) = none) : Carried m a where
  carries := by rw [Carries, hflight]; exact hm
  perm := by rw [hsent, hreceived, inFlight, hflight, inFlight]
  mem t ht := by rw [hreceived] at ht; contradiction

/-- A step of a store. -/
theorem carried_store (m : Network s) (i : ι) (ev : Event) (hm : m.Carries) :
    Carried m (.store i ev) := by
  have hn := Node.stepped (s.env i) (m.mesh.node i) (ev.clearing m.mesh.flight (s.eid i))
  have hmesh : Mesh.Stepped s.env s.eid m.mesh i _ _ _ := Mesh.stepped m.mesh i ev
  generalize hm' : m.mesh.step s.env s.eid (i, ev) = m' at hmesh
  have hflight : (m.step (.store i ev)).mesh.flight = m'.flight := by rw [step, hm']
  cases hmesh with
  | sent run =>
      obtain ⟨t, hsent, -, hpacket⟩ := hn.transferSent (s.eid i) run
      refine carried_of_sent hm (hflight.trans ?_) hsent
        (Node.transferReceived_eq_none (Node.receives_of_sends run))
      rw [hpacket]
  | received run =>
      obtain ⟨t, ht⟩ := hm _ (hn.mem_flight rfl run)
      refine carried_of_received hm (ht ▸ hn.mem_flight rfl run) (hflight.trans ?_)
        (Node.transferSent_eq_none (Node.sends_of_receives run))
        (hn.transferReceived run ht).1
      rw [← ht]
  | rest hs hr =>
      exact carried_of_rest hm hflight (Node.transferSent_eq_none hs)
        (Node.transferReceived_eq_none hr)

/-- What a wrapper encodes is the message of the transfer. -/
theorem message_encode (codec : Evm.OFTMsgCodec) (t : Transfer) (sender : Evm.Address)
    (composeMsg : List UInt8) (h : t.composed = if composeMsg = [] then none
      else some (codec.addressToBytes32 sender, composeMsg)) :
    codec.encode t.sendTo t.amountSd sender composeMsg = t.message := by
  rw [codec.encode_eq, Transfer.message, MsgCodec.encode_eq_encode_iff, h]
  split <;> simp

/-- The message of a transfer has `_credit` called for that transfer. -/
theorem creditCall_packet (codec : Evm.OFTMsgCodec) (p : Evm.Peer) (t : Transfer) :
    creditCall codec p t.packet =
      some (codec.bytes32ToAddress t.sendTo, t.amountSd.toNat * p.rate, t.srcEid) := by
  have hto : codec.sendTo t.message = some (codec.bytes32ToAddress t.sendTo) := by
    rw [codec.sendTo_eq, t.sendTo_message, Option.map_some]
  have hsd : codec.amountSD t.message = some t.amountSd := by
    rw [codec.amountSD_eq, t.amountSd_message]
  simp only [creditCall, Transfer.packet, hto, hsd, p.deployment.core.toLD_eq]
  rfl

omit [DecidableEq ι] [DecidableEq κ] in
theorem received_packet {m : Network s} {k : κ} {now : ℕ} {t : Transfer}
    (hin : m.Receivable k t.packet)
    (hrun : (receive s.codec (m.contract k) now t.packet).isSome) :
    received (m, .wrapper k (.lzReceive now t.packet)) = some t := by
  rw [received, if_pos ⟨hin, hrun⟩, t.transfer_packet, creditCall_packet]
  simp

/-- A call to a wrapper. -/
theorem carried_wrapper (m : Network s) (k : κ) (call : WrapperCall (s.peer k)) (hm : m.Carries) :
    Carried m (.wrapper k call) := by
  have hcalled := called m k call
  generalize hm' : m.step (.wrapper k call) = m' at hcalled
  cases hcalled with
  | sent run =>
      rename_i now sender amountLD minAmountLD dstEid sendTo composeMsg receiver nonce guid c sd
      let t : Transfer := {
        srcEid := (s.peer k).eid
        sender := s.address k
        dstEid, receiver, nonce, guid, sendTo
        amountSd := sd
        composed := if composeMsg = [] then none
          else some (s.codec.addressToBytes32 sender, composeMsg) }
      refine carried_of_sent (t := t) hm ?_ ?_ rfl
      · rw [hm', Transfer.packet, ← message_encode s.codec t sender composeMsg rfl]
      · simp only [sent, run, Option.map_some]
        rfl
  | received receivable run =>
      obtain ⟨t, rfl⟩ := hm _ receivable.1
      exact carried_of_received hm receivable.1 (by rw [hm']) rfl
        (received_packet receivable (Option.isSome_of_eq_some run))
  | other c => exact carried_of_rest hm (by rw [hm']) rfl rfl
  | notSent run => exact carried_of_rest hm (by rw [hm']) (by rw [sent, run, Option.map_none]) rfl
  | notReceived run =>
      refine carried_of_rest hm (by rw [hm']) rfl (if_neg ?_)
      rintro ⟨hin, hsome⟩
      rw [run hin] at hsome
      contradiction

theorem carried (m : Network s) (a : Action s) (hm : m.Carries) : Carried m a := by
  cases a with
  | store i ev => exact carried_store m i ev hm
  | wrapper k call => exact carried_wrapper m k call hm

/-! ## what one step takes and pays -/

theorem node_step_store (m : Network s) (i : ι) (ev : Event) :
    (m.step (.store i ev)).mesh.node i =
      (m.mesh.node i).step (s.env i) (ev.clearing m.mesh.flight (s.eid i)) := by
  have hmesh : Mesh.Stepped s.env s.eid m.mesh i _ _ _ := Mesh.stepped m.mesh i ev
  rw [step, hmesh.node, Function.update_self]

/-- What is sent was paid for. -/
theorem charged_of_sent (ledger : Ledgers s) {m : Network s} {a : Action s} {t : Transfer}
    (h : sent (m, a) = some t) : Charged ledger (m, a) t := by
  cases a with
  | store i ev =>
      have hn := Node.stepped (s.env i) (m.mesh.node i) (ev.clearing m.mesh.flight (s.eid i))
      obtain ⟨⟨params, out, receipt⟩, hrun⟩ := Node.exists_sends h
      obtain ⟨t', hsent, hcharged, hpacket⟩ := hn.transferSent (s.eid i) hrun
      obtain rfl := Option.some.inj (hsent.symm.trans h)
      rw [Charged, node_step_store]
      exact ⟨congrArg Packet.srcEid hpacket, hcharged⟩
  | wrapper k call =>
      cases call with
      | send now sender amountLD minAmountLD dstEid sendTo composeMsg receiver nonce guid =>
          obtain ⟨⟨c, sd⟩, hrun, rfl⟩ := Option.map_eq_some_iff.mp h
          obtain ⟨hmin, hmax, htoken⟩ := Evm.Peer.token_send hrun
          refine ⟨rfl, rfl, fun caller hcaller => ?_, hmin, hmax, ?_⟩
          · simp only [Option.mem_def, Option.ite_none_left_eq_some, Option.some.injEq] at hcaller
            rw [← hcaller.2]
            exact s.codec.bytes32ToAddress_addressToBytes32 sender
          · simp only [step, hrun, Function.update_self]
            exact Evm.burns_of_decrease (ledger k) htoken
      | lzReceive | other => contradiction

/-- What is received was paid. -/
theorem paid_of_received (ledger : Ledgers s) {m : Network s} {a : Action s} {t : Transfer}
    (hm : m.Carries) (h : received (m, a) = some t) : Paid ledger (m, a) t := by
  cases a with
  | store i ev =>
      have hn := Node.stepped (s.env i) (m.mesh.node i) (ev.clearing m.mesh.flight (s.eid i))
      obtain ⟨⟨params, out⟩, hrun, -⟩ := Option.map_eq_some_iff.mp h
      obtain ⟨t', ht⟩ := hm _ (hn.mem_flight rfl hrun)
      obtain ⟨hreceived, hpaid⟩ := hn.transferReceived hrun ht
      obtain rfl := Option.some.inj (hreceived.symm.trans h)
      rw [Paid, node_step_store]
      exact ⟨(congrArg Packet.dstEid ht).symm, hpaid⟩
  | wrapper k call =>
      cases call with
      | lzReceive now packet =>
          rw [received] at h
          split at h
          · next hin =>
            obtain ⟨receivable, hsome⟩ := hin
            obtain ⟨t', rfl⟩ := hm packet receivable.1
            rw [t'.transfer_packet] at h
            obtain rfl := Option.some.inj (Option.filter_eq_some_iff.mp h).1
            obtain ⟨c, hrun⟩ := Option.isSome_iff_exists.mp hsome
            refine ⟨receivable.2.1, receivable.2.2, ?_⟩
            simp only [step, if_pos receivable, hrun, Function.update_self]
            rw [receive_eq, creditCall_packet, Option.bind_some] at hrun
            obtain ⟨⟨c', amountReceivedLD⟩, hcredit, rfl⟩ := Option.map_eq_some_iff.mp hrun
            exact Evm.mints_of_increase (ledger k) (Evm.Peer.token_credit hcredit)
          · contradiction
      | send | other => contradiction

/-! ## whole runs -/

theorem carries_final (node : ι → Node) (contract : ∀ k, (s.peer k).Contract)
    (actions : List (Action s)) : (Run.final step (start node contract) actions).Carries :=
  Run.final_of_step (fun m a hm => (carried m a hm).carries)
    (by simp [Carries, start, Mesh.start]) actions

/-- What is in flight and what a run received is what it sent. -/
theorem inFlight_final (node : ι → Node) (contract : ∀ k, (s.peer k).Contract)
    (actions : List (Action s)) :
    ((Run.final step (start node contract) actions).inFlight ++
        (Run.trace step (start node contract) actions).filterMap received).Perm
      ((Run.trace step (start node contract) actions).filterMap sent) :=
  Run.ledger_perm (q := inFlight) (fun m a hm => (carried m a hm).carries)
    (fun m a hm => (carried m a hm).perm) (carries_final node contract []) actions

/-- Every transfer is carried out once, as it was asked for.  In every run of
a network the messages in flight are those of transfers, and the transfers in
flight and those received are, each as often, the transfers sent.  So what is
received was sent before, and was received by nobody else.  Whoever sent a
transfer paid for it, and is the caller if it is composed; receiving it pays
the recipient that it names, the amount of the one in the decimals of the
other. -/
theorem exactly_once {ι κ : Type} [DecidableEq ι] [DecidableEq κ] (s : Sites ι κ)
    (ledger : Ledgers s) (node : ι → Node) (contract : ∀ k, (s.peer k).Contract)
    (actions : List (Action s)) :
    let run := Run.trace step (start node contract) actions
    let m := Run.final step (start node contract) actions
    m.mesh.flight = m.inFlight.map Transfer.packet ∧
    (m.inFlight ++ run.filterMap received).Perm (run.filterMap sent) ∧
    (∀ e ∈ run, ∀ t, sent e = some t → Charged ledger e t) ∧
    (∀ e ∈ run, ∀ t, received e = some t → Paid ledger e t) ∧
    ∀ before a after t, actions = before ++ a :: after →
      received (Run.final step (start node contract) before, a) = some t →
      t ∈ (Run.trace step (start node contract) before).filterMap sent := by
  intro run m
  refine ⟨(carries_final node contract actions).flight_eq, inFlight_final node contract actions,
    fun _ _ _ ht => charged_of_sent ledger ht, fun e he t ht => ?_, ?_⟩
  · obtain ⟨before, after, -, hbefore⟩ := Run.mem_trace step he
    exact paid_of_received ledger (hbefore ▸ carries_final node contract before) ht
  · intro before a after t _ ht
    have hmem := (carried _ a (carries_final node contract before)).mem t ht
    exact (inFlight_final node contract before).subset (List.mem_append_left _ hmem)

/-- The wrapper of `sampleActions` has received one of the three transfers. -/
theorem exactly_once_example :
    let run := Run.trace step (start Mesh.sampleStores sampleContracts) sampleActions
    let m := Run.final step (start Mesh.sampleStores sampleContracts) sampleActions
    (run.filterMap received).map (·.amountSd) = [2000] ∧
      (m.inFlight ++ run.filterMap received).Perm (run.filterMap sent) ∧
      ∀ e ∈ run, ∀ t, received e = some t →
        Paid (fun _ => Evm.PaxosToken.Ledger.sample : Ledgers sampleSites) e t := by
  intro run m
  obtain ⟨-, hperm, -, hpaid, -⟩ := exactly_once sampleSites
    (fun _ => Evm.PaxosToken.Ledger.sample) Mesh.sampleStores sampleContracts sampleActions
  exact ⟨by decide +kernel, hperm, hpaid⟩

end Network

end CrossChain
