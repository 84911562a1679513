import CrossChain.Solana.Governance

/-!
# CrossChain.Solana.Configuration

The configuration of a store, part by part.

Each part is set by instructions of its own.  Whether one of them succeeds is
decided by the admin and by the part it sets, and nothing else in the program
writes a part.  So a part is what the instructions that set it, and those that
hand the admin role on, make of it by themselves: `configuration_apart` runs
them without all that happens in between.
-/

namespace CrossChain

open Except (Rel)

/-! ## the parts -/

/-- A part of the configuration. -/
inductive ConfigPart where
  | admin
  | defaultFee
  /-- the flag, and the keys that may set it -/
  | pausing
  | peer (eid : UInt32)
  deriving DecidableEq, Repr

namespace ConfigPart

/-- What is stored of a part. -/
def Value : ConfigPart → Type
  | admin => Pubkey
  | defaultFee => UInt16
  | pausing => Bool × Option Pubkey × Option Pubkey
  | peer _ => Option (FixedBytes 32 × EnforcedOptions × Option (UInt64 × UInt64) ×
      Option (UInt64 × UInt64) × Option UInt16)

/-- A part as it is stored. -/
def read : (p : ConfigPart) → Node → p.Value
  | admin, n => n.store.admin
  | defaultFee, n => n.store.defaultFeeBps
  | pausing, n => (n.store.paused, n.store.pauser, n.store.unpauser)
  | peer eid, n => (n.peers eid).map PeerConfig.settings

end ConfigPart

/-- The part a parameter of `set_oft_config` sets; the delegate is the
endpoint's to keep. -/
def SetOFTConfigParams.part : SetOFTConfigParams → Option ConfigPart
  | .admin _ => some .admin
  | .delegate _ => none
  | .defaultFee _ => some .defaultFee
  | .paused _ | .pauser _ | .unpauser _ => some .pausing

/-- The part an instruction sets. -/
def Instruction.part : Instruction → Option ConfigPart
  | setOftConfig _ _ params => params.part
  | setPeerConfig _ params => some (.peer params.remoteEid)
  | setPause _ _ => some .pausing
  | _ => none

def Event.part : Event → Option ConfigPart
  | .tx t => t.instruction.part
  | .external _ => none

/-- The events that set a part, or the admin, who sets them all. -/
def ConfigPart.dependsOn (p : ConfigPart) (ev : Event) : Bool :=
  ev.part = some .admin ∨ ev.part = some p

/-! ## `set_oft_config` as a check and a write -/

namespace SetOFTConfigParams

/-- What a parameter is checked for. -/
def check (endpoint : Endpoint) (remaining : List LzAccount) : SetOFTConfigParams → Result Unit
  | .delegate key => Except.require (endpoint.setDelegate remaining key) .cpi
  | .defaultFee feeBps => Except.require (feeBps < MAX_FEE_BASIS_POINTS) (.oft .invalidFee)
  | .admin _ | .paused _ | .pauser _ | .unpauser _ => pure ()

/-- What a parameter makes of the store. -/
def write (store : OFTStore) : SetOFTConfigParams → OFTStore
  | .admin key => { store with admin := key }
  | .delegate _ => store
  | .defaultFee feeBps => { store with defaultFeeBps := feeBps }
  | .paused flag => { store with paused := flag }
  | .pauser key => { store with pauser := key }
  | .unpauser key => { store with unpauser := key }

theorem origin_write (params : SetOFTConfigParams) (store : OFTStore) :
    (params.write store).origin = store.origin := by
  cases params <;> rfl

theorem admin_write (params : SetOFTConfigParams) {store store' : OFTStore}
    (h : store.admin = store'.admin) :
    (params.write store).admin = (params.write store').admin := by
  cases params with
  | admin => rfl
  | delegate | defaultFee | paused | pauser | unpauser => exact h

/-- A write leaves the parts it does not set. -/
theorem read_write {p : ConfigPart} {params : SetOFTConfigParams} (h : params.part ≠ some p)
    (n : Node) : p.read { n with store := params.write n.store } = p.read n := by
  cases params with
  | delegate => rfl
  | admin | defaultFee | paused | pauser | unpauser =>
      cases p with
      | peer => rfl
      | admin | defaultFee | pausing => first | rfl | exact absurd rfl h

end SetOFTConfigParams

theorem SetOFTConfig.apply_eq (env : Externals) (endpoint : Endpoint) (n : Node) (acc : Accounts)
    (remaining : List LzAccount) (params : SetOFTConfigParams) :
    apply env endpoint n acc remaining params = (do
      tryAccounts env n acc
      params.check endpoint remaining
      pure { n with store := params.write n.store }) := by
  cases params <;> rfl

/-! ## what sets a part -/

namespace Node

variable {env : Externals}

/-- A transfer with a peer leaves every part. -/
theorem read_setPeer {n m : Node} {eid : UInt32} {peer p : PeerConfig} (part : ConfigPart)
    (hstore : m.store = { n.store with tvlLd := m.store.tvlLd }) (hpeers : m.peers = n.peers)
    (hfound : n.peers eid = some peer) (hp : p.settings = peer.settings) :
    part.read (m.setPeer eid p) = part.read n := by
  cases part with
  | peer => exact settings_setPeer hpeers hfound hp
  | admin | defaultFee | pausing =>
      simp only [ConfigPart.read, setPeer]
      rw [hstore]

theorem read_exec {p : ConfigPart} {n n' : Node} {tx : Tx} (h : n.exec env tx = .ok n')
    (hpart : tx.instruction.part ≠ some p) : p.read n' = p.read n := by
  have hstep := stepped_of_exec h
  obtain ⟨clock, endpoint, instruction⟩ := tx
  cases instruction with
  | setOftConfig acc remaining params =>
      have hrun : SetOFTConfig.apply env endpoint n acc remaining params = .ok n' := h
      rw [SetOFTConfig.apply_eq] at hrun
      obtain ⟨-, -, hrun⟩ := Except.bind_eq_ok.mp hrun
      obtain ⟨-, -, hrun⟩ := Except.bind_eq_ok.mp hrun
      rw [← Except.pure_eq_ok.mp hrun]
      exact SetOFTConfigParams.read_write hpart n
  | setPeerConfig acc params =>
      obtain ⟨peer, hset⟩ := SetPeerConfig.peerSet h
      rw [hset.node]
      cases p with
      | peer eid =>
          have heid : eid ≠ params.remoteEid := fun heq => hpart (by rw [heq]; rfl)
          exact congrArg (Option.map PeerConfig.settings) (Function.update_of_ne heid _ _)
      | admin | defaultFee | pausing => rfl
  | setPause acc params =>
      obtain ⟨-, -, rfl⟩ := SetPause.apply_eq_ok h
      cases p with
      | pausing => exact absurd rfl hpart
      | admin | defaultFee | peer => rfl
  | send acc remaining params =>
      cases hstep with
      | send _ hsent =>
          have hout := settings_onLimiter (.tryConsume _) hsent.consumed (.inl ⟨_, rfl⟩)
          have hin := settings_onLimiter (.refill _) hsent.refilled (.inr ⟨_, rfl⟩)
          rw [hsent.node]
          refine read_setPeer p rfl rfl hsent.found ?_
          simp only [PeerConfig.settings, hout, hin]
      | idle => rfl
  | lzReceive accounts params =>
      cases hstep with
      | lzReceive _ _ hdelivered =>
          have hin := settings_onLimiter (.tryConsume _) hdelivered.consumed (.inl ⟨_, rfl⟩)
          have hout := settings_onLimiter (.refill _) hdelivered.refilled (.inr ⟨_, rfl⟩)
          rw [hdelivered.node]
          refine read_setPeer p rfl rfl hdelivered.found ?_
          simp only [PeerConfig.settings, hout, hin]
      | idle => rfl
  | withdrawFee acc params =>
      cases hstep with
      | withdrawFee _ hpaid => rw [hpaid.node]; cases p <;> rfl
      | idle => rfl
  | lzReceiveTypes | quoteOft | quoteSend =>
      cases hstep
      rfl

/-- A step leaves the parts it does not set. -/
theorem read_step {p : ConfigPart} {ev : Event} (h : ev.part ≠ some p) (n : Node) :
    p.read (n.step env ev) = p.read n := by
  cases ev with
  | tx tx =>
      cases hrun : n.exec env tx with
      | ok n' => rw [step_of_exec env hrun]; exact read_exec hrun h
      | error e => rw [step_of_error env hrun]
  | external tokens =>
      rw [step]
      split
      · cases p <;> rfl
      · rfl

end Node

/-! ## stores that agree on a part -/

/-- Two stores at one address, of one origin, with one admin, that agree on a
part. -/
structure ConfigPart.Agree (p : ConfigPart) (n m : Node) : Prop where
  key : n.key = m.key
  origin : n.store.origin = m.store.origin
  admin : n.store.admin = m.store.admin
  part : p.read n = p.read m

namespace ConfigPart

variable {env : Externals} {p : ConfigPart} {n m : Node}

theorem Agree.storeAt (h : p.Agree n m) (a : LzAccount) : n.StoreAt env a ↔ m.StoreAt env a := by
  have horigin := h.origin
  simp only [OFTStore.origin, Prod.mk.injEq] at horigin
  rw [Node.StoreAt, Node.StoreAt, h.key, horigin.2.2.2.1, horigin.2.2.2.2.2]

/-- Stores that agree on a part agree on it after the same write. -/
theorem Agree.write (h : p.Agree n m) (params : SetOFTConfigParams) :
    p.Agree { n with store := params.write n.store } { m with store := params.write m.store } where
  key := h.key
  origin := by rw [params.origin_write, params.origin_write, h.origin]
  admin := params.admin_write h.admin
  part := by
    by_cases hp : params.part = some p
    · cases params with
      | delegate => contradiction
      | admin | defaultFee =>
          obtain rfl := Option.some.inj hp
          rfl
      | paused | pauser | unpauser =>
          obtain rfl := Option.some.inj hp
          obtain ⟨hpaused, hroles⟩ := Prod.mk.inj h.part
          obtain ⟨hpauser, hunpauser⟩ := Prod.mk.inj hroles
          simp only [read, SetOFTConfigParams.write, hpaused, hpauser, hunpauser]
          rfl
    · rw [SetOFTConfigParams.read_write hp, SetOFTConfigParams.read_write hp, h.part]

/-- Stores that agree on a peer agree on it after peers of the same settings
were written. -/
theorem Agree.setPeer {eid : UInt32} {a b : PeerConfig} (h : (peer eid).Agree n m)
    (hab : a.settings = b.settings) : (peer eid).Agree (n.setPeer eid a) (m.setPeer eid b) where
  key := h.key
  origin := h.origin
  admin := h.admin
  part := by
    have ha : (n.setPeer eid a).peers eid = some a := Function.update_self ..
    have hb : (m.setPeer eid b).peers eid = some b := Function.update_self ..
    rw [read, read, ha, hb, Option.map_some, Option.map_some, hab]

end ConfigPart

/-! ## the instructions on such stores -/

variable {env : Externals} {n m : Node}

theorem SetOFTConfig.apply_rel {p : ConfigPart} (h : p.Agree n m) (endpoint : Endpoint)
    (acc : Accounts) (remaining : List LzAccount) (params : SetOFTConfigParams) :
    Rel p.Agree (apply env endpoint n acc remaining params)
      (apply env endpoint m acc remaining params) := by
  have hstore : n.StoreAt env acc.oftStore ↔ m.StoreAt env acc.oftStore := h.storeAt _
  have haccounts : tryAccounts env n acc = tryAccounts env m acc := by
    simp only [tryAccounts, hstore, h.admin]
  rw [apply_eq, apply_eq, haccounts]
  refine Rel.bind_left _ fun _ => Rel.bind_left _ fun _ => ?_
  exact .ok (h.write params)

theorem SetPause.apply_rel (h : ConfigPart.pausing.Agree n m) (acc : Accounts)
    (params : SetPauseParams) :
    Rel ConfigPart.pausing.Agree (apply env n acc params) (apply env m acc params) := by
  have hstore : n.StoreAt env acc.oftStore ↔ m.StoreAt env acc.oftStore := h.storeAt _
  obtain ⟨-, hroles⟩ := Prod.mk.inj h.part
  obtain ⟨hpauser, hunpauser⟩ := Prod.mk.inj hroles
  have hvalid : isValidSigner acc.signer.pubkey n.store params.paused =
      isValidSigner acc.signer.pubkey m.store params.paused := by
    rw [isValidSigner, isValidSigner, hpauser, hunpauser]
  simp only [apply, hstore, hvalid]
  refine Rel.bind_left _ fun _ => Rel.bind_left _ fun _ => Rel.bind_left _ fun _ => ?_
  exact .ok (h.write (.paused params.paused))

/-! ### `set_peer_config` -/

namespace SetPeerConfig

/-- What `set_peer_config` sets of a limiter. -/
def limits (l : RateLimiter) : UInt64 × UInt64 := (l.capacity, l.refillPerSecond)

theorem setCapacity_rel (clock : Clock) (capacity : UInt64) {l l' : RateLimiter}
    (h : limits l = limits l') :
    Rel (fun a b => limits a = limits b) (orFail (l.setCapacity clock capacity))
      (orFail (l'.setCapacity clock capacity)) := by
  cases hclock : clock.currentTime with
  | error e =>
      simp only [RateLimiter.setCapacity, hclock, orFail]
      exact .error e
  | ok now =>
      rw [RateLimiter.setCapacity_eq hclock, RateLimiter.setCapacity_eq hclock]
      exact .ok (congrArg (Prod.mk capacity) (Prod.mk.inj h).2)

theorem setRate_rel (clock : Clock) (refillPerSecond : UInt64) {l l' : RateLimiter}
    (h : limits l = limits l') :
    Rel (fun a b => limits a = limits b) (orFail (l.setRate clock refillPerSecond))
      (orFail (l'.setRate clock refillPerSecond)) := by
  cases hclock : clock.currentTime with
  | error e =>
      simp only [RateLimiter.setRate, RateLimiter.refill, hclock, orFail]
      exact .error e
  | ok now =>
      rw [RateLimiter.setRate_eq hclock, RateLimiter.setRate_eq hclock]
      exact .ok (congrArg (Prod.mk · refillPerSecond) (Prod.mk.inj h).1)

/-- The balance of a limiter has no part in its configuration: `update` of
limiters of the same limits gives limiters of the same limits. -/
theorem updateRateLimiter_rel (clock : Clock) (params : Option RateLimitParams)
    {limiter limiter' : Option RateLimiter} (h : limiter.map limits = limiter'.map limits) :
    Rel (fun a b => a.map limits = b.map limits) (updateRateLimiter clock limiter params)
      (updateRateLimiter clock limiter' params) := by
  cases params with
  | none => exact .ok rfl
  | some param =>
      have hold : limits (limiter.getD .default) = limits (limiter'.getD .default) := by
        rw [← Option.getD_map limits, ← Option.getD_map limits, h]
      refine Rel.bind (r := fun a b => limits a = limits b) ?_ fun a b hab => ?_
      · cases param.capacity with
        | none => exact .ok hold
        | some capacity => exact setCapacity_rel clock capacity hold
      refine Rel.bind (r := fun a b => limits a = limits b) ?_ fun a b hab => ?_
      · cases param.refillPerSecond with
        | none => exact .ok hab
        | some refillRate => exact setRate_rel clock refillRate hab
      · exact .ok (congrArg some hab)

/-- Two peers of the same settings. -/
def SameSettings (a b : PeerConfig) : Prop := a.settings = b.settings

theorem update_rel (clock : Clock) (config : PeerConfigParam) {a b : PeerConfig}
    (h : SameSettings a b) :
    Rel SameSettings (update env clock a config) (update env clock b config) := by
  have hsettings := h
  simp only [SameSettings, PeerConfig.settings, Prod.mk.injEq] at hsettings
  obtain ⟨haddress, hoptions, houtbound, hinbound, hfee⟩ := hsettings
  cases config with
  | peerAddress address =>
      refine .ok ?_
      simp only [SameSettings, PeerConfig.settings, hoptions, houtbound, hinbound, hfee]
  | feeBps feeBps =>
      refine Rel.bind_left _ fun _ => .ok ?_
      simp only [SameSettings, PeerConfig.settings, haddress, hoptions, houtbound, hinbound]
  | enforcedOptions send sendAndCall =>
      refine Rel.bind_left _ fun _ => Rel.bind_left _ fun _ => .ok ?_
      simp only [SameSettings, PeerConfig.settings, haddress, houtbound, hinbound, hfee]
  | outboundRateLimit params =>
      refine (updateRateLimiter_rel clock params houtbound).bind fun l l' hl => .ok ?_
      have hlimits : l.map (fun l => (l.capacity, l.refillPerSecond)) =
          l'.map fun l => (l.capacity, l.refillPerSecond) := hl
      simp only [SameSettings, PeerConfig.settings, haddress, hoptions, hinbound, hfee, hlimits]
  | inboundRateLimit params =>
      refine (updateRateLimiter_rel clock params hinbound).bind fun l l' hl => .ok ?_
      have hlimits : l.map (fun l => (l.capacity, l.refillPerSecond)) =
          l'.map fun l => (l.capacity, l.refillPerSecond) := hl
      simp only [SameSettings, PeerConfig.settings, haddress, hoptions, houtbound, hfee, hlimits]

/-- The room a peer takes is decided by its settings. -/
theorem SameSettings.serializedSize {a b : PeerConfig} (h : SameSettings a b) :
    a.serializedSize = b.serializedSize := by
  simp only [SameSettings, PeerConfig.settings, Prod.mk.injEq] at h
  obtain ⟨-, hoptions, houtbound, hinbound, hfee⟩ := h
  have hout := congrArg Option.isSome houtbound
  have hin := congrArg Option.isSome hinbound
  rw [Option.isSome_map, Option.isSome_map] at hout hin
  simp only [PeerConfig.serializedSize, PeerConfig.optionSize, hoptions, hout, hin, hfee]

theorem apply_rel {eid : UInt32} (h : (ConfigPart.peer eid).Agree n m) (clock : Clock)
    (acc : Accounts) {params : SetPeerConfigParams} (heid : params.remoteEid = eid) :
    Rel (ConfigPart.peer eid).Agree (apply env clock n acc params)
      (apply env clock m acc params) := by
  subst heid
  have hpeer : SameSettings ((n.peers params.remoteEid).getD .zeroed)
      ((m.peers params.remoteEid).getD .zeroed) := by
    have hread : (n.peers params.remoteEid).map PeerConfig.settings =
        (m.peers params.remoteEid).map PeerConfig.settings := h.part
    rw [SameSettings, ← Option.getD_map PeerConfig.settings,
      ← Option.getD_map PeerConfig.settings, hread]
  have hstore : n.StoreAt env acc.oftStore ↔ m.StoreAt env acc.oftStore := h.storeAt _
  have haccounts : Rel (fun x y : PeerConfig × UInt8 => SameSettings x.1 y.1)
      (tryAccounts env n acc params) (tryAccounts env m acc params) := by
    simp only [tryAccounts, h.key, hstore, h.admin]
    refine Rel.bind_left _ fun _ => Rel.bind_left _ fun _ => Rel.bind_left _ fun _ =>
      Rel.bind_left _ fun _ => Rel.bind_left _ fun _ => ?_
    exact .ok hpeer
  refine haccounts.bind fun x y hxy => (update_rel clock params.config hxy).bind fun a b hab => ?_
  have hsize : { a with bump := x.2 }.serializedSize = { b with bump := y.2 }.serializedSize :=
    SameSettings.serializedSize hab
  simp only [hsize]
  exact Rel.bind_left _ fun _ => .ok (h.setPeer hab)

end SetPeerConfig

/-! ## runs -/

namespace Node

/-- What a step shows of itself: that it succeeded, or the error. -/
def outcome (env : Externals) : Node × Event → Result Unit
  | (n, .tx tx) => (n.exec env tx).map fun _ => ()
  | (_, .external _) => .ok ()

theorem exec_rel {p : ConfigPart} (h : p.Agree n m) {tx : Tx}
    (hp : tx.instruction.part = some .admin ∨ tx.instruction.part = some p) :
    Rel p.Agree (n.exec env tx) (m.exec env tx) := by
  obtain ⟨clock, endpoint, instruction⟩ := tx
  cases instruction with
  | setOftConfig acc remaining params =>
      exact SetOFTConfig.apply_rel h endpoint acc remaining params
  | setPeerConfig acc params =>
      rcases hp with hadmin | hpart
      · exact absurd (Option.some.inj hadmin) (by simp)
      · obtain rfl := Option.some.inj hpart
        exact SetPeerConfig.apply_rel h clock acc rfl
  | setPause acc params =>
      rcases hp with hadmin | hpart
      · exact absurd (Option.some.inj hadmin) (by simp)
      · obtain rfl := Option.some.inj hpart
        exact SetPause.apply_rel h acc params
  | send | lzReceive | lzReceiveTypes | quoteOft | quoteSend | withdrawFee =>
      simp [Instruction.part] at hp

/-- An event that a part depends on acts alike on stores that agree on it. -/
theorem agree_step {p : ConfigPart} (h : p.Agree n m) {ev : Event} (hev : p.dependsOn ev = true) :
    p.Agree (n.step env ev) (m.step env ev) ∧ outcome env (n, ev) = outcome env (m, ev) := by
  have hpart := of_decide_eq_true hev
  cases ev with
  | tx tx =>
      have hrel : Rel p.Agree (n.exec env tx) (m.exec env tx) := exec_rel h hpart
      refine ⟨?_, hrel.map_eq ()⟩
      rw [step, step]
      generalize n.exec env tx = x at hrel ⊢
      generalize m.exec env tx = y at hrel ⊢
      cases hrel with
      | ok h' => exact h'
      | error => exact h
  | external => simp [Event.part] at hpart

/-- Any other event leaves the stores in agreement, if it happens to one of
them only. -/
theorem agree_of_step {p : ConfigPart} (h : p.Agree n m) {ev : Event}
    (hev : p.dependsOn ev = false) : p.Agree (n.step env ev) m := by
  obtain ⟨hadmin, hpart⟩ := not_or.mp (of_decide_eq_false hev)
  have hstep := stepped env n ev
  exact {
    key := hstep.key.trans h.key
    origin := hstep.origin.trans h.origin
    admin := (read_step (p := .admin) hadmin n).trans h.admin
    part := (read_step hpart n).trans h.part }

/-- Each part of a store's configuration is what its own instructions make of
it.  A run without the events that set neither the part nor the admin (sends,
deliveries, withdrawals, queries, changes of other parts and of the ledger)
leaves the part as the whole run does, and its instructions succeed and fail
as they do there. -/
theorem configuration_apart (env : Externals) (p : ConfigPart) (n : Node) (events : List Event) :
    let own := events.filter p.dependsOn
    p.read (Run.final (step env) n events) = p.read (Run.final (step env) n own) ∧
    ((Run.trace (step env) n events).filter fun e => p.dependsOn e.2).map (outcome env) =
      (Run.trace (step env) n own).map (outcome env) := by
  intro own
  have hdrop : ∀ n m ev, p.Agree n m → p.dependsOn ev = false → p.Agree (n.step env ev) m :=
    fun n m ev h hev => agree_of_step h hev
  have hkeep : ∀ n m ev, p.Agree n m → p.dependsOn ev = true →
      p.Agree (n.step env ev) (m.step env ev) ∧ outcome env (n, ev) = outcome env (m, ev) :=
    fun n m ev h hev => agree_step h hev
  obtain ⟨hagree, houtcomes⟩ := Run.final_filter hdrop hkeep ⟨rfl, rfl, rfl, rfl⟩ events
  exact ⟨hagree.part, houtcomes⟩

end Node

end CrossChain
