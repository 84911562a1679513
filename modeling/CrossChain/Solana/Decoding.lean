import CrossChain.Solana.Program

/-!
# CrossChain.Solana.Decoding

Which messages the decoders accept.

`msg_codec` tells a composed message by its length alone: what follows byte
40, if anything does, is forwarded as `[composeFrom][composeMsg]`.  An
encoded message has 40 bytes or at least 72.  A message between the two is
decoded although nothing encodes to it, and what is forwarded of it is too
short for `compose_from` to read a sender from.
-/

namespace CrossChain

namespace MsgCodec

/-- What the handlers read of a message can be read; `compose_msg` never
fails. -/
def Decodes (message : List UInt8) : Prop :=
  (sendTo message).isSome ∧ (amountSd message).isSome

/-- The message is one that `encode` gives. -/
def Encoded (message : List UInt8) : Prop :=
  ∃ dst sd sender msg, encode dst sd sender msg = message

/-! ## by length -/

theorem decodes_iff {message : List UInt8} : Decodes message ↔ 40 ≤ message.length := by
  rw [Decodes, sendTo, amountSd, Option.isSome_map, Bytes.isSome_slice, Bytes.isSome_slice,
    SEND_TO_OFFSET, SEND_AMOUNT_SD_OFFSET]
  omega

/-- A message of either length is what its parts encode to. -/
theorem encoded_of_length {message : List UInt8}
    (h : message.length = 40 ∨ 72 ≤ message.length) : Encoded message := by
  obtain ⟨dst, rest, rfl⟩ := Bytes.exists_eq_append (show 32 ≤ message.length by omega)
  have hdst := dst.property
  rw [List.length_append] at h
  obtain ⟨word, tail, rfl⟩ := Bytes.exists_eq_append (show 8 ≤ rest.length by omega)
  have hword := word.property
  rw [List.length_append] at h
  cases h with
  | inl h =>
      obtain rfl : tail = [] := List.length_eq_zero_iff.mp (by omega)
      exact ⟨dst, Bytes.toU64 word, .default, none, by simp [encode, Bytes.ofU64_toU64]⟩
  | inr h =>
      obtain ⟨sender, msg, rfl⟩ := Bytes.exists_eq_append (show 32 ≤ tail.length by omega)
      exact ⟨dst, Bytes.toU64 word, sender, some msg, by simp [encode, Bytes.ofU64_toU64]⟩

theorem encoded_iff {message : List UInt8} :
    Encoded message ↔ message.length = 40 ∨ 72 ≤ message.length := by
  constructor
  · rintro ⟨dst, sd, sender, msg, rfl⟩
    rw [length_encode]
    cases msg with
    | none => exact .inl rfl
    | some c =>
        have hsender := sender.property
        rw [tail, List.length_append]
        omega
  · exact encoded_of_length

/-- The compose part is what follows byte 40. -/
theorem composeMsg_eq_some {message payload : List UInt8}
    (h : composeMsg message = some payload) : payload.length + 40 = message.length := by
  unfold composeMsg COMPOSE_MSG_OFFSET at h
  split at h
  · rw [← Option.some.inj h, List.length_drop]
    omega
  · contradiction

end MsgCodec

/-- A sender can be read where the payload holds one. -/
theorem ComposeMsgCodec.isSome_composeFrom (nonce : UInt64) (srcEid : UInt32) (amountLd : UInt64)
    (payload : List UInt8) :
    (composeFrom (encode nonce srcEid amountLd payload)).isSome ↔ 32 ≤ payload.length := by
  rw [composeFrom, Bytes.isSome_slice, length_encode, COMPOSE_FROM_OFFSET]
  omega

/-! ## what is accepted -/

/-- The decoders accept the messages of 40 bytes and more, of which those of
41 to 71 bytes are no encodings.  Of these and no others, the payload that
`lz_receive` forwards is without a full sender. -/
theorem decoded_formats (message : List UInt8) :
    (MsgCodec.Decodes message ↔ 40 ≤ message.length) ∧
    (MsgCodec.Decodes message →
      (MsgCodec.Encoded message ↔ message.length = 40 ∨ 72 ≤ message.length)) ∧
    (∀ payload nonce srcEid amountLd, MsgCodec.composeMsg message = some payload →
      ((ComposeMsgCodec.composeFrom
        (ComposeMsgCodec.encode nonce srcEid amountLd payload)).isSome ↔ 72 ≤ message.length)) ∧
    ∀ env clock endpoint n acc remaining params out, params.message = message →
      LzReceive.deliver env clock endpoint n acc remaining params = .ok out →
      ∀ c ∈ out.compose,
        ((ComposeMsgCodec.composeFrom c.message).isSome ↔ 72 ≤ message.length) := by
  have hforward : ∀ payload nonce srcEid amountLd, MsgCodec.composeMsg message = some payload →
      ((ComposeMsgCodec.composeFrom
        (ComposeMsgCodec.encode nonce srcEid amountLd payload)).isSome ↔ 72 ≤ message.length) := by
    intro payload nonce srcEid amountLd h
    have hlen := MsgCodec.composeMsg_eq_some h
    rw [ComposeMsgCodec.isSome_composeFrom]
    omega
  refine ⟨MsgCodec.decodes_iff, fun _ => MsgCodec.encoded_iff, hforward, ?_⟩
  rintro env clock endpoint n acc remaining params out rfl hout c hc
  obtain ⟨peer, outbound, inbound, opened, amountSd, amountLd, h⟩ := LzReceive.delivered hout
  rw [h.compose] at hc
  obtain ⟨payload, hpayload, rfl⟩ := Option.map_eq_some_iff.mp hc
  exact hforward payload _ _ _ hpayload

theorem decoded_formats_example :
    let message := MsgCodec.encode (Pubkey.ofByte 22) 7 (.ofByte 41) (some [1])
    MsgCodec.Encoded message ∧ ∀ nonce srcEid amountLd,
      (ComposeMsgCodec.composeFrom
        (ComposeMsgCodec.encode nonce srcEid amountLd (message.drop 40))).isSome := by
  intro message
  obtain ⟨hdecodes, hencoded, hforward, -⟩ := decoded_formats message
  refine ⟨(hencoded (hdecodes.mpr (by decide))).mpr (by decide), ?_⟩
  intro nonce srcEid amountLd
  exact (hforward _ nonce srcEid amountLd (by decide)).mpr (by decide)

/-- A transfer to key 22, and one byte more. -/
def longMessage : List UInt8 := MsgCodec.encode (Pubkey.ofByte 22) 7 .default none ++ [1]

/-- It is decoded by both handlers and delivered, encoded by none, and has a
payload that `compose_from` panics on. -/
theorem decoded_not_encoded :
    let n := (Node.sample .native (.sample 0 Node.sampleKey none)).step .sample
      (.sample 0 (.sampleSetPeer 30101 (.peerAddress (Pubkey.ofByte 40))))
    let params : LzReceiveParams :=
      ⟨30101, Pubkey.ofByte 40, 1, FixedBytes.zero 32, longMessage⟩
    MsgCodec.Decodes longMessage ∧ ¬ MsgCodec.Encoded longMessage ∧
      (do let accounts ← LzReceiveTypes.apply .sample ⟨0, 0⟩ n
            ⟨.readonly Node.sampleKey, .readonly (.ofByte 11)⟩ params
          let out ← LzReceive.apply .sample ⟨0, 0⟩ .sample n accounts params
          pure (out.compose.map fun c => ComposeMsgCodec.composeFrom c.message) :
        Result (Option (Option (FixedBytes 32)))).toOption = some (some none) := by
  intro n params
  refine ⟨MsgCodec.decodes_iff.mpr (by decide), ?_, by decide +kernel⟩
  rw [MsgCodec.encoded_iff]
  decide

end CrossChain
