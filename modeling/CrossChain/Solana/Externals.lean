import CrossChain.Solana.Token

/-!
# CrossChain.Solana.Externals

The code the program calls that is not part of the repository, as parameters.
`Externals` are functions of their arguments; the endpoint's answers may be
others in each transaction.
-/

namespace CrossChain

/-! ## the runtime and its libraries -/

/-- The parts of the Solana runtime, of the SPL programs and libraries and of
the `oapp` crate that the program calls as functions, with what their
documentation promises of them. -/
structure Externals where
  /-- `crate::ID` -/
  programId : Pubkey
  /-- `oapp::endpoint::ID` -/
  endpointId : Pubkey
  tokenProgram : TokenProgram
  /-- the ids that `Interface<TokenInterface>` accepts -/
  isTokenProgram : Pubkey → Bool
  associatedTokenId : Pubkey
  systemProgramId : Pubkey
  findProgramAddress : List (List UInt8) → Pubkey → Pubkey × UInt8
  createProgramAddress : List (List UInt8) → Pubkey → Option Pubkey
  /-- the address found is the one the found bump creates -/
  create_find : ∀ seeds id, createProgramAddress (seeds ++ [[(findProgramAddress seeds id).2]]) id =
    some (findProgramAddress seeds id).1
  /-- `get_associated_token_address_with_program_id(wallet, mint, token_program)` -/
  associatedTokenAddress : Pubkey → Pubkey → Pubkey → Pubkey
  /-- `oapp::endpoint_cpi::EVENT_SEED` -/
  eventSeed : List UInt8
  eventSeed_eq : eventSeed = EVENT_AUTHORITY_SEED
  /-- `oapp::options::combine_options` -/
  combineOptions : List UInt8 → List UInt8 → Result (List UInt8)
  /-- `oapp::options::assert_type_3` -/
  assertType3 : List UInt8 → Result Unit
  /-- `Clear::MIN_ACCOUNTS_LEN` -/
  clearMinAccountsLen : ℕ
  /-- `get_accounts_for_clear(endpoint_program, receiver, src_eid, sender, nonce)` -/
  getAccountsForClear : Pubkey → Pubkey → UInt32 → Pubkey → UInt64 → List LzAccount
  length_getAccountsForClear : ∀ endpoint receiver srcEid sender nonce,
    (getAccountsForClear endpoint receiver srcEid sender nonce).length = clearMinAccountsLen
  /-- `get_accounts_for_send_compose(endpoint_program, from, to, guid, index, message)` -/
  getAccountsForSendCompose : Pubkey → Pubkey → Pubkey → FixedBytes 32 → UInt16 → List UInt8 →
    List LzAccount

namespace Externals

/-- A derived address that shows what it is derived from: the last bytes
hashed, shifted by `tag`. -/
def digest (tag : UInt8) (parts : List (List UInt8)) : Pubkey :=
  ⟨((parts.flatten.reverse.map (· + tag)) ++ List.replicate 32 0).take 32, by simp⟩

/-- A small instance, to run the program on. -/
def sample : Externals where
  programId := .ofByte 1
  endpointId := .ofByte 2
  tokenProgram := .sample
  isTokenProgram k := k = .ofByte 3
  associatedTokenId := .ofByte 4
  systemProgramId := .default
  findProgramAddress seeds _ := (digest 5 seeds, 255)
  createProgramAddress seeds _ := if seeds.getLast? = some [255] then some (digest 5 seeds.dropLast)
    else none
  create_find seeds _ := by simp
  associatedTokenAddress wallet mint tokenProgram :=
    digest 6 [tokenProgram.val, mint.val, wallet.val]
  eventSeed := EVENT_AUTHORITY_SEED
  eventSeed_eq := rfl
  combineOptions enforced extra := .ok (enforced ++ extra)
  assertType3 options := require (options.take 2 = [0, 3]) .invalidArgument
  clearMinAccountsLen := 9
  getAccountsForClear endpoint _ _ _ _ := List.replicate 9 ⟨endpoint, false, true⟩
  length_getAccountsForClear _ _ _ _ _ := List.length_replicate
  getAccountsForSendCompose endpoint _ _ _ _ _ := List.replicate 7 ⟨endpoint, false, true⟩

end Externals

/-! ## the endpoint -/

/-- `MessagingFee`. -/
structure MessagingFee where
  nativeFee : UInt64
  lzTokenFee : UInt64
  deriving DecidableEq, Repr

/-- `MessagingReceipt`. -/
structure MessagingReceipt where
  guid : FixedBytes 32
  nonce : UInt64
  fee : MessagingFee
  deriving DecidableEq, Repr

/-- The endpoint's `SendParams`. -/
structure EndpointSendParams where
  dstEid : UInt32
  receiver : FixedBytes 32
  message : List UInt8
  options : List UInt8
  nativeFee : UInt64
  lzTokenFee : UInt64
  deriving DecidableEq, Repr

/-- The endpoint's `QuoteParams`. -/
structure QuoteParams where
  sender : Pubkey
  dstEid : UInt32
  receiver : FixedBytes 32
  message : List UInt8
  payInLzToken : Bool
  options : List UInt8
  deriving DecidableEq, Repr

/-- The endpoint's `ClearParams`. -/
structure ClearParams where
  receiver : Pubkey
  srcEid : UInt32
  sender : FixedBytes 32
  nonce : UInt64
  guid : FixedBytes 32
  message : List UInt8
  deriving DecidableEq, Repr

/-- The endpoint's `SendComposeParams`. -/
structure SendComposeParams where
  toAddress : Pubkey
  guid : FixedBytes 32
  index : UInt16
  message : List UInt8
  deriving DecidableEq, Repr

/-- The endpoint program's answers to the calls of one transaction.  Each
call is made with the remaining accounts the code passes on. -/
structure Endpoint where
  registerOapp : Pubkey → List LzAccount → Pubkey → Bool
  setDelegate : List LzAccount → Pubkey → Bool
  quote : List LzAccount → QuoteParams → Option MessagingFee
  send : List LzAccount → EndpointSendParams → Option MessagingReceipt
  clear : List LzAccount → ClearParams → Bool
  sendCompose : List LzAccount → SendComposeParams → Bool

/-- An endpoint that takes every call. -/
def Endpoint.sample : Endpoint where
  registerOapp _ _ _ := true
  setDelegate _ _ := true
  quote _ _ := some ⟨0, 0⟩
  send _ _ := some ⟨FixedBytes.zero 32, 1, ⟨0, 0⟩⟩
  clear _ _ := true
  sendCompose _ _ := true

end CrossChain
