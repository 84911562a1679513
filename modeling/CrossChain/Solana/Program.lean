import CrossChain.Lib.Run
import CrossChain.Solana.Admin
import CrossChain.Solana.LzReceiveTypes
import CrossChain.Solana.Quote

/-!
# CrossChain.Solana.Program

The program as a machine: a store takes transactions, each one instruction,
and a transaction that fails changes nothing.  Between them the ledger of
the mint changes by other hands, which may not debit the escrow.

`Stepped` lists what one step can do, with what each instruction's own
module says of it; `stepped` is the only place where the instructions are
taken apart.  A run is a list of events, and `Run.trace` its steps.
-/

namespace CrossChain

/-- An instruction with the accounts and the data it is called with. -/
inductive Instruction where
  | send (acc : Send.Accounts) (remaining : List LzAccount) (params : SendParams)
  | lzReceive (accounts : List LzAccount) (params : LzReceiveParams)
  | lzReceiveTypes (acc : LzReceiveTypes.Accounts) (params : LzReceiveParams)
  | quoteOft (acc : QuoteAccounts) (params : QuoteOFTParams)
  | quoteSend (acc : QuoteAccounts) (remaining : List LzAccount) (params : QuoteSendParams)
  | setOftConfig (acc : SetOFTConfig.Accounts) (remaining : List LzAccount)
      (params : SetOFTConfigParams)
  | setPeerConfig (acc : SetPeerConfig.Accounts) (params : SetPeerConfigParams)
  | setPause (acc : SetPause.Accounts) (params : SetPauseParams)
  | withdrawFee (acc : WithdrawFee.Accounts) (params : WithdrawFeeParams)

/-- The key the instruction's own struct requires a signature of. -/
def Instruction.signer : Instruction → Option LzAccount
  | send acc _ _ => some acc.signer
  | lzReceive accounts _ => accounts.head?
  | lzReceiveTypes _ _ | quoteOft _ _ | quoteSend _ _ _ => none
  | setOftConfig acc _ _ => some acc.admin
  | setPeerConfig acc _ => some acc.admin
  | setPause acc _ => some acc.signer
  | withdrawFee acc _ => some acc.admin

/-- A transaction: an instruction, the clock it runs at, and the endpoint's
answers to its calls. -/
structure Tx where
  clock : Clock
  endpoint : Endpoint
  instruction : Instruction

/-- Key `k` signed the transaction. -/
def Tx.SignedBy (tx : Tx) (k : Pubkey) : Prop :=
  ∃ a ∈ tx.instruction.signer, a.pubkey = k ∧ a.isSigner

/-! ## instructions for `Node.sample` -/

namespace Instruction

/-- The account of its peer for an endpoint id. -/
def samplePeer (eid : UInt32) : LzAccount :=
  .writable (Externals.sample.findProgramAddress (Node.peerSeeds Node.sampleKey eid) .default).1

/-- The admin configures that peer. -/
def sampleSetPeer (eid : UInt32) (config : PeerConfigParam) : Instruction :=
  .setPeerConfig
    ⟨.signer (.ofByte 13), samplePeer eid, .readonly Node.sampleKey, .readonly .default⟩
    ⟨eid, config⟩

/-- The accounts of a send by key 20 from its account 21 to that peer. -/
def sampleAccounts (eid : UInt32) : Send.Accounts where
  signer := .signer (.ofByte 20)
  peer := samplePeer eid
  oftStore := .writable Node.sampleKey
  tokenSource := .writable (.ofByte 21)
  tokenEscrow := .writable (.ofByte 12)
  tokenMint := .writable (.ofByte 11)
  tokenProgram := .readonly (.ofByte 3)
  eventAuthority :=
    .readonly (Externals.sample.findProgramAddress [EVENT_AUTHORITY_SEED] .default).1
  program := .readonly (.ofByte 1)

def sampleRemaining : List LzAccount := [.readonly (.ofByte 2), .readonly Node.sampleKey]

def sampleParams (dstEid : UInt32) (amountLd : UInt64) : SendParams where
  dstEid
  toAddress := Pubkey.ofByte 22
  amountLd
  minAmountLd := 0
  options := []
  composeMsg := none
  nativeFee := 0
  lzTokenFee := 0

/-- Key 20 sends to key 22. -/
def sampleSend (dstEid : UInt32) (amountLd : UInt64) : Instruction :=
  .send (sampleAccounts dstEid) sampleRemaining (sampleParams dstEid amountLd)

/-- The executor delivers such a transfer, on the accounts `lz_receive_types`
lists. -/
def sampleReceive (n : Node) (srcEid : UInt32) (sender : FixedBytes 32) (amountSd : UInt64) :
    Instruction :=
  let params : LzReceiveParams := ⟨srcEid, sender, 1, FixedBytes.zero 32,
    MsgCodec.encode (Pubkey.ofByte 22) amountSd .default none⟩
  let accounts := LzReceiveTypes.apply .sample ⟨0, 0⟩ n
    ⟨.readonly Node.sampleKey, .readonly (.ofByte 11)⟩ params
  .lzReceive (accounts.toOption.getD []) params

/-- The admin withdraws to account 21. -/
def sampleWithdraw (feeLd : UInt64) : Instruction :=
  .withdrawFee {
    admin := .signer (.ofByte 13)
    oftStore := .readonly Node.sampleKey
    tokenMint := .readonly (.ofByte 11)
    tokenEscrow := .writable (.ofByte 12)
    tokenDest := .writable (.ofByte 21)
    tokenProgram := .readonly (.ofByte 3) } ⟨feeLd⟩

end Instruction

/-- What happens at a store. -/
inductive Event where
  | tx (tx : Tx)
  /-- the ledger changes by other programs' instructions -/
  | external (tokens : Tokens)

/-- An instruction at a time, with an endpoint that takes every call. -/
def Event.sample (unixTimestamp : Int64) (instruction : Instruction) : Event :=
  .tx ⟨⟨unixTimestamp, 0⟩, .sample, instruction⟩

namespace Node

variable (env : Externals)

/-- Run an instruction: the state it leaves, when it succeeds. -/
def exec (n : Node) (tx : Tx) : Result Node :=
  match tx.instruction with
  | .send acc remaining params => do
      let r ← Send.apply env tx.clock tx.endpoint n acc remaining params
      pure r.1.node
  | .lzReceive accounts params => do
      let out ← LzReceive.apply env tx.clock tx.endpoint n accounts params
      pure out.node
  | .lzReceiveTypes acc params => do
      let _ ← LzReceiveTypes.apply env tx.clock n acc params
      pure n
  | .quoteOft acc params => do
      let _ ← QuoteOFT.apply env tx.clock n acc params
      pure n
  | .quoteSend acc remaining params => do
      let _ ← QuoteSend.apply env tx.clock tx.endpoint n acc remaining params
      pure n
  | .setOftConfig acc remaining params => SetOFTConfig.apply env tx.endpoint n acc remaining params
  | .setPeerConfig acc params => SetPeerConfig.apply env tx.clock n acc params
  | .setPause acc params => SetPause.apply env n acc params
  | .withdrawFee acc params => WithdrawFee.apply env tx.clock n acc params

/-- The escrow account is still the store's, with no less in it. -/
def Permits (n : Node) (tokens : Tokens) : Prop :=
  (tokens.accounts n.store.tokenEscrow).map (·.authority) =
      (n.tokens.accounts n.store.tokenEscrow).map (·.authority) ∧
    n.tokens.balance n.store.tokenEscrow ≤ tokens.balance n.store.tokenEscrow

instance (n : Node) (tokens : Tokens) : Decidable (n.Permits tokens) :=
  inferInstanceAs (Decidable (_ ∧ _))

/-- One step of a store. -/
def step (n : Node) : Event → Node
  | .tx tx =>
      match n.exec env tx with
      | .ok n' => n'
      | .error _ => n
  | .external tokens => if n.Permits tokens then { n with tokens } else n

theorem step_of_exec {n n' : Node} {tx : Tx} (h : n.exec env tx = .ok n') :
    n.step env (.tx tx) = n' := by
  rw [step, h]

theorem step_of_error {n : Node} {tx : Tx} {e : Error} (h : n.exec env tx = .error e) :
    n.step env (.tx tx) = n := by
  rw [step, h]

/-- What a transaction that goes through leads to, and a change by others that
is permitted, a step leads to if it holds before it. -/
theorem step_rule {P : Node → Prop} {n : Node} {ev : Event} (hn : P n)
    (htx : ∀ tx n', ev = .tx tx → n.exec env tx = .ok n' → P n')
    (hexternal : ∀ tokens, ev = .external tokens → n.Permits tokens → P { n with tokens }) :
    P (n.step env ev) := by
  cases ev with
  | tx tx =>
      cases h : n.exec env tx with
      | ok n' =>
          rw [step_of_exec env h]
          exact htx tx n' rfl h
      | error e =>
          rw [step_of_error env h]
          exact hn
  | external tokens =>
      rw [step]
      split
      · next h => exact hexternal tokens rfl h
      · exact hn

/-! ## what a step did -/

/-- The send that succeeded in a step, if one did. -/
def sends : Node × Event → Option (SendParams × Send.Outcome × MessagingReceipt)
  | (n, .tx ⟨clock, endpoint, .send acc remaining params⟩) =>
      (Send.apply env clock endpoint n acc remaining params).toOption.map fun r =>
        (params, r.1, r.2.1)
  | _ => none

/-- The delivery that succeeded in a step, if one did. -/
def receives : Node × Event → Option (LzReceiveParams × LzReceive.Outcome)
  | (n, .tx ⟨clock, endpoint, .lzReceive accounts params⟩) =>
      (LzReceive.apply env clock endpoint n accounts params).toOption.map fun out => (params, out)
  | _ => none

/-- The peer configuration that succeeded in a step, if one did. -/
def configures : Node × Event → Option SetPeerConfigParams
  | (n, .tx ⟨clock, _, .setPeerConfig acc params⟩) =>
      (SetPeerConfig.apply env clock n acc params).toOption.map fun _ => params
  | _ => none

/-- The withdrawal that succeeded in a step, if one did. -/
def withdraws : Node × Event → Option (WithdrawFee.Accounts × WithdrawFeeParams)
  | (n, .tx ⟨clock, _, .withdrawFee acc params⟩) =>
      (WithdrawFee.apply env clock n acc params).toOption.map fun _ => (acc, params)
  | _ => none

/-- A step that did none of these. -/
structure Idle (n : Node) (ev : Event) : Prop where
  sends : sends env (n, ev) = none
  receives : receives env (n, ev) = none
  configures : configures env (n, ev) = none
  withdraws : withdraws env (n, ev) = none
  external : ∀ tokens, ev = .external tokens → ¬ n.Permits tokens

variable {env}

/-- A step that sends is a successful `send`. -/
theorem sends_eq_some {n : Node} {ev : Event} {params : SendParams} {out : Send.Outcome}
    {receipt : MessagingReceipt} (h : sends env (n, ev) = some (params, out, receipt)) :
    ∃ clock endpoint acc remaining event, ev = .tx ⟨clock, endpoint, .send acc remaining params⟩ ∧
      Send.apply env clock endpoint n acc remaining params = .ok (out, receipt, event) := by
  unfold sends at h
  split at h
  · next hev =>
    obtain ⟨rfl, rfl⟩ := Prod.mk.inj hev
    rename_i clock endpoint acc remaining params'
    cases hrun : Send.apply env clock endpoint n acc remaining params' with
    | ok r =>
        rw [hrun] at h
        obtain ⟨out', receipt', event⟩ := r
        obtain ⟨rfl, rfl, rfl⟩ : params' = params ∧ out' = out ∧ receipt' = receipt := by
          simpa only [Prod.mk.injEq] using Option.some.inj h
        exact ⟨clock, endpoint, acc, remaining, event, rfl, hrun⟩
    | error e => rw [hrun] at h; contradiction
  · contradiction

/-- A step that receives is a successful `lz_receive`. -/
theorem receives_eq_some {n : Node} {ev : Event} {params : LzReceiveParams}
    {out : LzReceive.Outcome} (h : receives env (n, ev) = some (params, out)) :
    ∃ clock endpoint accounts, ev = .tx ⟨clock, endpoint, .lzReceive accounts params⟩ ∧
      LzReceive.apply env clock endpoint n accounts params = .ok out := by
  unfold receives at h
  split at h
  · next hev =>
    obtain ⟨rfl, rfl⟩ := Prod.mk.inj hev
    rename_i clock endpoint accounts params'
    cases hrun : LzReceive.apply env clock endpoint n accounts params' with
    | ok out' =>
        rw [hrun] at h
        obtain ⟨rfl, rfl⟩ : params' = params ∧ out' = out := by
          simpa only [Prod.mk.injEq] using Option.some.inj h
        exact ⟨clock, endpoint, accounts, rfl, hrun⟩
    | error e => rw [hrun] at h; contradiction
  · contradiction

theorem receives_of_sends {n : Node} {ev : Event} {r : SendParams × Send.Outcome × MessagingReceipt}
    (h : sends env (n, ev) = some r) : receives env (n, ev) = none := by
  obtain ⟨clock, endpoint, acc, remaining, event, rfl, -⟩ := sends_eq_some h
  rfl

theorem sends_of_receives {n : Node} {ev : Event} {r : LzReceiveParams × LzReceive.Outcome}
    (h : receives env (n, ev) = some r) : sends env (n, ev) = none := by
  obtain ⟨clock, endpoint, accounts, rfl, -⟩ := receives_eq_some h
  rfl

theorem idle_of_error {n : Node} {tx : Tx} {e : Error} (h : n.exec env tx = .error e) :
    Idle env n (.tx tx) := by
  obtain ⟨clock, endpoint, instruction⟩ := tx
  cases instruction with
  | send acc remaining params =>
      obtain ⟨e', he⟩ : ∃ e', Send.apply env clock endpoint n acc remaining params = .error e' :=
        Except.error_of_bind_pure h
      exact ⟨by rw [Node.sends, he]; rfl, rfl, rfl, rfl, nofun⟩
  | lzReceive accounts params =>
      obtain ⟨e', he⟩ : ∃ e', LzReceive.apply env clock endpoint n accounts params = .error e' :=
        Except.error_of_bind_pure h
      exact ⟨rfl, by rw [Node.receives, he]; rfl, rfl, rfl, nofun⟩
  | setPeerConfig acc params =>
      have he : SetPeerConfig.apply env clock n acc params = .error e := h
      exact ⟨rfl, rfl, by rw [Node.configures, he]; rfl, rfl, nofun⟩
  | withdrawFee acc params =>
      have he : WithdrawFee.apply env clock n acc params = .error e := h
      exact ⟨rfl, rfl, rfl, by rw [Node.withdraws, he]; rfl, nofun⟩
  | lzReceiveTypes | quoteOft | quoteSend | setOftConfig | setPause =>
      exact ⟨rfl, rfl, rfl, rfl, nofun⟩

variable (env)

/-! ## what a step can do -/

/-- The ways a step goes.  An idle step leaves the store as it was: it is a
failed transaction, a query, or a ledger change that is not permitted. -/
inductive Stepped (n : Node) : Event → Node → Prop
  | send {clock : Clock} {endpoint : Endpoint} {acc : Send.Accounts} {remaining : List LzAccount}
      {params : SendParams} {out : Send.Outcome} {receipt : MessagingReceipt} {peer : PeerConfig}
      {outbound inbound : Option RateLimiter}
      (run : sends env (n, .tx ⟨clock, endpoint, .send acc remaining params⟩) =
        some (params, out, receipt))
      (h : Send.Prepared env clock n acc params out peer outbound inbound) :
      Stepped n (.tx ⟨clock, endpoint, .send acc remaining params⟩) out.node
  | lzReceive {clock : Clock} {endpoint : Endpoint} {accounts : List LzAccount}
      {params : LzReceiveParams} {out : LzReceive.Outcome} {acc : LzReceive.Accounts}
      {remaining : List LzAccount} {peer : PeerConfig} {outbound inbound : Option RateLimiter}
      {opened : Tokens} {amountSd amountLd : UInt64}
      (run : receives env (n, .tx ⟨clock, endpoint, .lzReceive accounts params⟩) =
        some (params, out))
      (list : LzReceive.Accounts.ofList env accounts = some (acc, remaining))
      (h : LzReceive.Delivered env clock endpoint n acc remaining params out peer outbound inbound
        opened amountSd amountLd) :
      Stepped n (.tx ⟨clock, endpoint, .lzReceive accounts params⟩) out.node
  | setOftConfig {clock : Clock} {endpoint : Endpoint} {acc : SetOFTConfig.Accounts}
      {remaining : List LzAccount} {params : SetOFTConfigParams} {n' : Node}
      (h : SetOFTConfig.Configured n acc n') :
      Stepped n (.tx ⟨clock, endpoint, .setOftConfig acc remaining params⟩) n'
  | setPeerConfig {clock : Clock} {endpoint : Endpoint} {acc : SetPeerConfig.Accounts}
      {params : SetPeerConfigParams} {n' : Node} {peer : PeerConfig}
      (run : configures env (n, .tx ⟨clock, endpoint, .setPeerConfig acc params⟩) = some params)
      (h : SetPeerConfig.PeerSet env clock n acc params n' peer) :
      Stepped n (.tx ⟨clock, endpoint, .setPeerConfig acc params⟩) n'
  | setPause {clock : Clock} {endpoint : Endpoint} {acc : SetPause.Accounts}
      {params : SetPauseParams} (signed : acc.signer.isSigner)
      (valid : SetPause.isValidSigner acc.signer.pubkey n.store params.paused) :
      Stepped n (.tx ⟨clock, endpoint, .setPause acc params⟩)
        { n with store := { n.store with paused := params.paused } }
  | withdrawFee {clock : Clock} {endpoint : Endpoint} {acc : WithdrawFee.Accounts}
      {params : WithdrawFeeParams} {n' : Node}
      (run : withdraws env (n, .tx ⟨clock, endpoint, .withdrawFee acc params⟩) =
        some (acc, params))
      (h : WithdrawFee.Withdrawn n acc clock params n') :
      Stepped n (.tx ⟨clock, endpoint, .withdrawFee acc params⟩) n'
  | external {tokens : Tokens} (h : n.Permits tokens) :
      Stepped n (.external tokens) { n with tokens }
  | idle {ev : Event} (h : Idle env n ev) : Stepped n ev n

variable {env}

/-- A successful transaction is one of these ways. -/
theorem stepped_of_exec {n n' : Node} {tx : Tx} (h : n.exec env tx = .ok n') :
    Stepped env n (.tx tx) n' := by
  obtain ⟨clock, endpoint, instruction⟩ := tx
  cases instruction with
  | send acc remaining params =>
      obtain ⟨r, hrun, hr⟩ := Except.bind_eq_ok.mp h
      obtain ⟨peer, outbound, inbound, hp⟩ := Send.prepared (Send.apply_eq_ok hrun).1
      rw [← Except.pure_eq_ok.mp hr]
      exact .send (by rw [sends, hrun]; rfl) hp
  | lzReceive accounts params =>
      obtain ⟨out, hrun, hout⟩ := Except.bind_eq_ok.mp h
      obtain ⟨acc, remaining, hlist, hdeliver⟩ := LzReceive.apply_eq_ok hrun
      obtain ⟨peer, outbound, inbound, opened, amountSd, amountLd, hd⟩ :=
        LzReceive.delivered hdeliver
      rw [← Except.pure_eq_ok.mp hout]
      exact .lzReceive (by rw [receives, hrun]; rfl) hlist hd
  | lzReceiveTypes | quoteOft | quoteSend =>
      obtain ⟨r, -, hr⟩ := Except.bind_eq_ok.mp h
      rw [← Except.pure_eq_ok.mp hr]
      exact .idle ⟨rfl, rfl, rfl, rfl, nofun⟩
  | setOftConfig acc remaining params => exact .setOftConfig (SetOFTConfig.configured h)
  | setPeerConfig acc params =>
      have hrun : SetPeerConfig.apply env clock n acc params = .ok n' := h
      obtain ⟨peer, hp⟩ := SetPeerConfig.peerSet hrun
      exact .setPeerConfig (by rw [configures, hrun]; rfl) hp
  | setPause acc params =>
      obtain ⟨hsigned, hvalid, rfl⟩ := SetPause.apply_eq_ok h
      exact .setPause hsigned hvalid
  | withdrawFee acc params =>
      have hrun : WithdrawFee.apply env clock n acc params = .ok n' := h
      exact .withdrawFee (by rw [withdraws, hrun]; rfl) (WithdrawFee.withdrawn hrun)

variable (env) in
/-- Every step goes one of these ways. -/
theorem stepped (n : Node) (ev : Event) : Stepped env n ev (n.step env ev) := by
  cases ev with
  | tx tx =>
      cases h : n.exec env tx with
      | ok n' =>
          rw [step_of_exec env h]
          exact stepped_of_exec h
      | error e =>
          rw [step_of_error env h]
          exact .idle (idle_of_error h)
  | external tokens =>
      by_cases h : n.Permits tokens
      · have hstep : n.step env (.external tokens) = { n with tokens } := if_pos h
        rw [hstep]
        exact .external h
      · have hstep : n.step env (.external tokens) = n := if_neg h
        rw [hstep]
        exact .idle ⟨rfl, rfl, rfl, rfl, fun _ hev => Event.external.inj hev ▸ h⟩

/-! ## what no step changes -/

theorem Stepped.key {n n' : Node} {ev : Event} (h : Stepped env n ev n') : n'.key = n.key := by
  cases h with
  | send _ h => rw [h.node]; rfl
  | lzReceive _ _ h => rw [h.node]; rfl
  | setOftConfig h => rw [h.node]
  | setPeerConfig _ h => rw [h.node]; rfl
  | withdrawFee _ h => rw [h.node]
  | setPause | external | idle => rfl

theorem Stepped.origin {n n' : Node} {ev : Event} (h : Stepped env n ev n') :
    n'.store.origin = n.store.origin := by
  cases h with
  | send _ h => rw [h.node]; rfl
  | lzReceive _ _ h => rw [h.node]; rfl
  | setOftConfig h => exact h.origin
  | setPeerConfig _ h => rw [h.node]; rfl
  | withdrawFee _ h => rw [h.node]
  | setPause | external | idle => rfl

theorem key_final (n : Node) (events : List Event) :
    (Run.final (step env) n events).key = n.key :=
  Run.final_of_step (I := fun m : Node => m.key = n.key)
    (fun m ev h => (stepped env m ev).key.trans h) rfl events

/-- What `init_oft` fixed holds at the end of every run. -/
theorem origin_final (n : Node) (events : List Event) :
    (Run.final (step env) n events).store.origin = n.store.origin :=
  Run.final_of_step (I := fun m : Node => m.store.origin = n.store.origin)
    (fun m ev h => (stepped env m ev).origin.trans h) rfl events

end Node

end CrossChain
