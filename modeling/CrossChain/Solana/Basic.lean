import CrossChain.Lib.Bytes
import CrossChain.Lib.Checked

/-!
# CrossChain.Solana.Basic

What the OFT program stands on: keys, errors, the clock, and accounts as
instructions receive them.

The program is compiled with `overflow-checks = true`, so a `u64` operator
that would wrap aborts the instruction, as a failed `unwrap` or an index out
of range does.  `Error.abort` is all of these.
-/

namespace CrossChain

/-- `Pubkey`: 32 bytes. -/
abbrev Pubkey := FixedBytes 32

namespace Pubkey

/-- `Pubkey::default()`, all zeros. -/
def default : Pubkey := FixedBytes.zero 32

/-- A key for each byte, to write small examples with. -/
def ofByte (b : UInt8) : Pubkey := ⟨b :: List.replicate 31 0, rfl⟩

end Pubkey

/-! ## errors -/

/-- `OFTError` (errors.rs). -/
inductive OFTError where
  | unauthorized
  | invalidSender
  | invalidDecimals
  | slippageExceeded
  | invalidTokenDest
  | rateLimitExceeded
  | invalidFee
  | invalidMintAuthority
  | paused
  deriving DecidableEq, Repr

/-- Why an instruction fails. -/
inductive Error where
  /-- an error code of the program -/
  | oft (e : OFTError)
  /-- `ProgramError::InvalidArgument` -/
  | invalidArgument
  /-- a panic: overflow, division by zero, `unwrap`, index out of range -/
  | abort
  /-- an account constraint that has no error code of the program -/
  | constraint
  /-- the account is too small for what the handler wrote to it -/
  | accountDidNotSerialize
  /-- a cross-program invocation failed -/
  | cpi
  deriving DecidableEq, Repr

abbrev Result (α : Type) := Except Error α

export Except (okOr require)

/-- A value the code unwraps: its absence is a panic. -/
def orAbort {α : Type} (x : Option α) : Result α := okOr x .abort

theorem orAbort_eq_ok {α : Type} {x : Option α} {a : α} : orAbort x = .ok a ↔ x = some a :=
  Except.okOr_eq_ok

/-! ## the clock -/

/-- The `Clock` sysvar, the fields the program reads. -/
structure Clock where
  unixTimestamp : Int64
  epoch : UInt64
  deriving DecidableEq, Repr

namespace Clock

/-- `Clock::get()?.unix_timestamp.try_into().unwrap()`. -/
def currentTime (c : Clock) : Result UInt64 :=
  if 0 ≤ c.unixTimestamp.toInt then .ok (UInt64.ofNat c.unixTimestamp.toInt.toNat)
  else .error .abort

theorem currentTime_eq_ok {c : Clock} {now : UInt64} :
    c.currentTime = .ok now ↔ c.unixTimestamp.toInt = now.toNat := by
  have hlt : c.unixTimestamp.toInt < 2 ^ 63 := Int64.toInt_lt c.unixTimestamp
  unfold currentTime
  constructor
  · intro h
    split at h
    · next hle =>
      rw [← Except.ok.inj h, UInt64.toNat_ofNat_of_lt_two_pow (by omega)]
      omega
    · contradiction
  · intro h
    rw [if_pos (by omega), h, Int.toNat_natCast, UInt64.ofNat_toNat]

/-- The reading in seconds; there are none before 1970. -/
def seconds (c : Clock) : ℕ := c.unixTimestamp.toInt.toNat

/-- A reading that the program can use is its seconds. -/
theorem toNat_of_currentTime {c : Clock} {now : UInt64} (h : c.currentTime = .ok now) :
    now.toNat = c.seconds := by
  rw [currentTime_eq_ok] at h
  rw [seconds, h, Int.toNat_natCast]

end Clock

/-! ## accounts as instructions receive them -/

/-- `LzAccount`: an account of an instruction, as its caller lists it. -/
structure LzAccount where
  pubkey : Pubkey
  isSigner : Bool
  isWritable : Bool
  deriving DecidableEq, Repr

namespace LzAccount

def signer (k : Pubkey) : LzAccount := ⟨k, true, true⟩

def writable (k : Pubkey) : LzAccount := ⟨k, false, true⟩

def readonly (k : Pubkey) : LzAccount := ⟨k, false, false⟩

end LzAccount

/-- The bytes of an ASCII string literal. -/
def bytesOf (s : String) : List UInt8 := s.toList.map fun c => UInt8.ofNat c.toNat

def OFT_SEED : List UInt8 := bytesOf "OFT"

def PEER_SEED : List UInt8 := bytesOf "Peer"

/-- The seed of the event authority that `#[event_cpi]` declares. -/
def EVENT_AUTHORITY_SEED : List UInt8 := bytesOf "__event_authority"

end CrossChain
