import CrossChain.Solana.Basic

/-!
# CrossChain.Solana.MsgCodec

The two wire formats of a transfer (msg_codec.rs, compose_msg_codec.rs).

```
message  =  sendTo (32) ++ amountSd (8)                       without compose
message  =  sendTo (32) ++ amountSd (8) ++ sender (32) ++ msg  with compose
compose  =  nonce (8) ++ srcEid (4) ++ amountLd (8) ++ sender (32) ++ msg
```

The part of the message from byte 40 on is carried over unread into the
compose message, so what the sender wrote there is what the composed
receiver reads.  Accessors that slice are `none` where the slice panics.
-/

namespace CrossChain

/-! ## the message -/

namespace MsgCodec

def SEND_TO_OFFSET : ℕ := 0

def SEND_AMOUNT_SD_OFFSET : ℕ := 32

def COMPOSE_MSG_OFFSET : ℕ := 40

/-- `msg_codec::encode`. -/
def encode (sendTo : FixedBytes 32) (amountSd : UInt64) (sender : Pubkey)
    (composeMsg : Option (List UInt8)) : List UInt8 :=
  match composeMsg with
  | some msg => sendTo.val ++ (Bytes.ofU64 amountSd ++ (sender.val ++ msg))
  | none => sendTo.val ++ Bytes.ofU64 amountSd

/-- `msg_codec::send_to`. -/
def sendTo (message : List UInt8) : Option (FixedBytes 32) :=
  Bytes.slice message SEND_TO_OFFSET 32

/-- `msg_codec::amount_sd`. -/
def amountSd (message : List UInt8) : Option UInt64 :=
  (Bytes.slice message SEND_AMOUNT_SD_OFFSET 8).map Bytes.toU64

/-- `msg_codec::compose_msg`. -/
def composeMsg (message : List UInt8) : Option (List UInt8) :=
  if COMPOSE_MSG_OFFSET < message.length then some (message.drop COMPOSE_MSG_OFFSET) else none

variable (dst : FixedBytes 32) (sd : UInt64) (sender : Pubkey) (msg : Option (List UInt8))

/-- What follows the fixed 40 bytes of a message. -/
def tail (sender : Pubkey) : Option (List UInt8) → List UInt8
  | some msg => sender.val ++ msg
  | none => []

/-- Both shapes of a message are its fixed part and its tail. -/
theorem encode_eq : encode dst sd sender msg = dst.val ++ (Bytes.ofU64 sd ++ tail sender msg) := by
  cases msg <;> simp [encode, tail]

theorem length_encode : (encode dst sd sender msg).length = 40 + (tail sender msg).length := by
  have hdst := dst.property
  rw [encode_eq, List.length_append, List.length_append, Bytes.length_ofU64, hdst]
  omega

theorem sendTo_encode : sendTo (encode dst sd sender msg) = some dst := by
  rw [encode_eq]
  exact Bytes.slice_append [] dst _

theorem amountSd_encode : amountSd (encode dst sd sender msg) = some sd := by
  have hdst := dst.property
  have hslice := Bytes.slice_append dst.val ⟨Bytes.ofU64 sd, Bytes.length_ofU64 sd⟩
    (tail sender msg)
  rw [hdst] at hslice
  rw [amountSd, encode_eq, SEND_AMOUNT_SD_OFFSET, hslice, Option.map_some, Bytes.toU64_ofU64]

/-- The compose part of a message is its tail, and is absent exactly when
there was none: a tail with a sender in it is never empty. -/
theorem composeMsg_encode :
    composeMsg (encode dst sd sender msg) = msg.map fun c => sender.val ++ c := by
  have hdst := dst.property
  have hsender := sender.property
  have hlen := length_encode dst sd sender msg
  unfold composeMsg COMPOSE_MSG_OFFSET
  cases msg with
  | none =>
      rw [if_neg (by simp only [tail, List.length_nil] at hlen; omega), Option.map_none]
  | some c =>
      have hfront : (dst.val ++ Bytes.ofU64 sd).length = 40 := by simp [hdst]
      rw [if_pos (by simp only [tail, List.length_append] at hlen; omega), encode_eq,
        ← List.append_assoc, ← hfront, Bytes.suffix_append, Option.map_some]
      rfl

/-- Messages that differ in their sender differ in its 32 bytes only. -/
theorem getElem?_encode (sender' : Pubkey) {i : ℕ} (hi : i < 40 ∨ 72 ≤ i) :
    (encode dst sd sender msg)[i]? = (encode dst sd sender' msg)[i]? := by
  have hfront : (dst.val ++ Bytes.ofU64 sd).length = 40 := by
    rw [List.length_append, dst.property, Bytes.length_ofU64]
  have hlen := sender.property
  have hlen' := sender'.property
  rw [encode_eq, encode_eq, ← List.append_assoc, ← List.append_assoc]
  rcases hi with hi | hi
  · have hlt : i < (dst.val ++ Bytes.ofU64 sd).length := hfront ▸ hi
    rw [List.getElem?_append_left hlt, List.getElem?_append_left hlt]
  · have hle : (dst.val ++ Bytes.ofU64 sd).length ≤ i := by omega
    rw [List.getElem?_append_right hle, List.getElem?_append_right hle, hfront]
    cases msg with
    | none => rfl
    | some c =>
        rw [tail, tail, List.getElem?_append_right (by omega),
          List.getElem?_append_right (by omega), hlen, hlen']

theorem length_encode_eq (sd' : UInt64) (sender' : Pubkey) :
    (encode dst sd sender msg).length = (encode dst sd' sender' msg).length := by
  rw [length_encode, length_encode]
  cases msg with
  | none => rfl
  | some c =>
      rw [tail, tail, List.length_append, List.length_append, sender.property, sender'.property]

end MsgCodec

/-! ## the compose message -/

namespace ComposeMsgCodec

def NONCE_OFFSET : ℕ := 0

def SRC_EID_OFFSET : ℕ := 8

def AMOUNT_LD_OFFSET : ℕ := 12

def COMPOSE_FROM_OFFSET : ℕ := 20

def COMPOSE_MSG_OFFSET : ℕ := 52

/-- `compose_msg_codec::encode`; `composeMsg` is `[composeFrom][composeMsg]`. -/
def encode (nonce : UInt64) (srcEid : UInt32) (amountLd : UInt64) (composeMsg : List UInt8) :
    List UInt8 :=
  Bytes.ofU64 nonce ++ (Bytes.ofU32 srcEid ++ (Bytes.ofU64 amountLd ++ composeMsg))

/-- `compose_msg_codec::nonce`. -/
def nonce (message : List UInt8) : Option UInt64 :=
  (Bytes.slice message NONCE_OFFSET 8).map Bytes.toU64

/-- `compose_msg_codec::src_eid`. -/
def srcEid (message : List UInt8) : Option UInt32 :=
  (Bytes.slice message SRC_EID_OFFSET 4).map Bytes.toU32

/-- `compose_msg_codec::amount_ld`. -/
def amountLd (message : List UInt8) : Option UInt64 :=
  (Bytes.slice message AMOUNT_LD_OFFSET 8).map Bytes.toU64

/-- `compose_msg_codec::compose_from`. -/
def composeFrom (message : List UInt8) : Option (FixedBytes 32) :=
  Bytes.slice message COMPOSE_FROM_OFFSET 32

/-- `compose_msg_codec::compose_msg`. -/
def composeMsg (message : List UInt8) : List UInt8 :=
  if COMPOSE_MSG_OFFSET < message.length then message.drop COMPOSE_MSG_OFFSET else []

variable (n : UInt64) (eid : UInt32) (ld : UInt64) (body : List UInt8)

theorem length_encode : (encode n eid ld body).length = 20 + body.length := by
  simp [encode]; omega

theorem nonce_encode : nonce (encode n eid ld body) = some n := by
  have hslice := Bytes.slice_append [] ⟨Bytes.ofU64 n, Bytes.length_ofU64 n⟩
    (Bytes.ofU32 eid ++ (Bytes.ofU64 ld ++ body))
  rw [nonce, encode, NONCE_OFFSET]
  simp only [List.nil_append, List.length_nil] at hslice
  rw [hslice, Option.map_some, Bytes.toU64_ofU64]

theorem srcEid_encode : srcEid (encode n eid ld body) = some eid := by
  have hslice := Bytes.slice_append (Bytes.ofU64 n) ⟨Bytes.ofU32 eid, Bytes.length_ofU32 eid⟩
    (Bytes.ofU64 ld ++ body)
  rw [Bytes.length_ofU64] at hslice
  rw [srcEid, encode, SRC_EID_OFFSET, hslice, Option.map_some, Bytes.toU32_ofU32]

theorem amountLd_encode : amountLd (encode n eid ld body) = some ld := by
  have hslice := Bytes.slice_append (Bytes.ofU64 n ++ Bytes.ofU32 eid)
    ⟨Bytes.ofU64 ld, Bytes.length_ofU64 ld⟩ body
  simp only [List.length_append, Bytes.length_ofU64, Bytes.length_ofU32,
    List.append_assoc] at hslice
  rw [amountLd, encode, AMOUNT_LD_OFFSET, hslice, Option.map_some, Bytes.toU64_ofU64]

theorem composeFrom_encode (sender : Pubkey) (msg : List UInt8) :
    composeFrom (encode n eid ld (sender.val ++ msg)) = some sender := by
  have hslice := Bytes.slice_append (Bytes.ofU64 n ++ (Bytes.ofU32 eid ++ Bytes.ofU64 ld))
    sender msg
  simp only [List.length_append, Bytes.length_ofU64, Bytes.length_ofU32,
    List.append_assoc] at hslice
  rw [composeFrom, encode, COMPOSE_FROM_OFFSET, hslice]

/-- The payload reads back whole; an empty one takes the other branch of the
length test, which gives the same empty vector. -/
theorem composeMsg_encode (sender : Pubkey) (msg : List UInt8) :
    composeMsg (encode n eid ld (sender.val ++ msg)) = msg := by
  have hsender := sender.property
  have hlen := length_encode n eid ld (sender.val ++ msg)
  rw [List.length_append, hsender] at hlen
  unfold composeMsg COMPOSE_MSG_OFFSET
  split
  · have hfront : (Bytes.ofU64 n ++ (Bytes.ofU32 eid ++ (Bytes.ofU64 ld ++ sender.val))).length =
        52 := by simp [hsender]
    have hassoc : encode n eid ld (sender.val ++ msg) =
        (Bytes.ofU64 n ++ (Bytes.ofU32 eid ++ (Bytes.ofU64 ld ++ sender.val))) ++ msg := by
      simp [encode]
    rw [hassoc, ← hfront, Bytes.suffix_append]
  · next hshort =>
    exact (List.length_eq_zero_iff.mp (by omega)).symm

end ComposeMsgCodec

/-! ## end to end -/

/-- Messages are equal when they say the same: the recipient, the amount, the
compose payload and, when there is one, the sender. -/
theorem MsgCodec.encode_eq_encode_iff (dst dst' : FixedBytes 32) (sd sd' : UInt64)
    (sender sender' : Pubkey) (msg msg' : Option (List UInt8)) :
    encode dst sd sender msg = encode dst' sd' sender' msg' ↔
      dst = dst' ∧ sd = sd' ∧ msg = msg' ∧ (msg = none ∨ sender = sender') := by
  constructor
  · intro h
    have hdst := congrArg sendTo h
    have hsd := congrArg amountSd h
    have hmsg := congrArg composeMsg h
    rw [sendTo_encode, sendTo_encode, Option.some.injEq] at hdst
    rw [amountSd_encode, amountSd_encode, Option.some.injEq] at hsd
    rw [composeMsg_encode, composeMsg_encode] at hmsg
    refine ⟨hdst, hsd, ?_⟩
    match msg, msg', hmsg with
    | none, none, _ => exact ⟨rfl, .inl rfl⟩
    | some c, some c', hmsg =>
        simp only [Option.map_some, Option.some.injEq] at hmsg
        have hlen : sender.val.length = sender'.val.length :=
          sender.property.trans sender'.property.symm
        obtain ⟨hs, hc⟩ := List.append_inj hmsg hlen
        exact ⟨congrArg some hc, .inr (Subtype.ext hs)⟩
  · rintro ⟨rfl, rfl, rfl, rfl | rfl⟩ <;> rfl

/-- What is sent is what is read, through both codecs: the recipient and the
amount by the token transfer, and the delivery data, the sender and the
payload by the composed receiver. -/
theorem codecs_end_to_end (sendTo : FixedBytes 32) (amountSd : UInt64) (sender : Pubkey)
    (composeMsg : Option (List UInt8)) (nonce : UInt64) (srcEid : UInt32) (amountLd : UInt64) :
    let m := MsgCodec.encode sendTo amountSd sender composeMsg
    MsgCodec.sendTo m = some sendTo ∧ MsgCodec.amountSd m = some amountSd ∧
    (match composeMsg with
      | none => MsgCodec.composeMsg m = none
      | some c => ∃ p, MsgCodec.composeMsg m = some p ∧
          let q := ComposeMsgCodec.encode nonce srcEid amountLd p
          ComposeMsgCodec.nonce q = some nonce ∧ ComposeMsgCodec.srcEid q = some srcEid ∧
          ComposeMsgCodec.amountLd q = some amountLd ∧
          ComposeMsgCodec.composeFrom q = some sender ∧ ComposeMsgCodec.composeMsg q = c) ∧
    ∀ sendTo' amountSd' sender' composeMsg',
      m = MsgCodec.encode sendTo' amountSd' sender' composeMsg' ↔
        sendTo = sendTo' ∧ amountSd = amountSd' ∧ composeMsg = composeMsg' ∧
          (composeMsg = none ∨ sender = sender') := by
  intro m
  refine ⟨MsgCodec.sendTo_encode _ _ _ _, MsgCodec.amountSd_encode _ _ _ _, ?_, ?_⟩
  · have hcompose := MsgCodec.composeMsg_encode sendTo amountSd sender composeMsg
    cases composeMsg with
    | none => exact hcompose
    | some c =>
        exact ⟨sender.val ++ c, hcompose,
          ComposeMsgCodec.nonce_encode _ _ _ _, ComposeMsgCodec.srcEid_encode _ _ _ _,
          ComposeMsgCodec.amountLd_encode _ _ _ _, ComposeMsgCodec.composeFrom_encode _ _ _ _ _,
          ComposeMsgCodec.composeMsg_encode _ _ _ _ _⟩
  · intro sendTo' amountSd' sender' composeMsg'
    exact MsgCodec.encode_eq_encode_iff _ _ _ _ _ _ _ _

end CrossChain
