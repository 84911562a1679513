import CrossChain.Solana.Program

/-!
# CrossChain.Solana.Limits

How much flows through a rate limiter in a span of time.

A peer has two limiters, and a transfer either way touches both: it consumes
the one of its direction and refills the other.  The two directions are one
argument (`Side`).  `Touched` is all that a step can do to one limiter
without reconfiguring it; `Holds` is the bucket a limiter stands for at a
time; and the flow bound is the one of `CrossChain.Lib.TokenBucket`, carried
through a run.
-/

namespace CrossChain

/-! ## the bucket at a time -/

namespace RateLimiter

/-- At time `t` the limiter stands for the bucket `b`: what it stores, and
the seconds since. -/
def Holds (l : RateLimiter) (t : ℕ) (b : Bucket) : Prop :=
  l.lastRefillTime.toNat ≤ t ∧ ∃ b₀, l.Stores b₀ ∧ b = b₀.wait (t - l.lastRefillTime.toNat)

theorem holds_toBucket {l : RateLimiter} {t : ℕ} (hl : l.WF) (ht : l.lastRefillTime.toNat ≤ t) :
    l.Holds t ((l.toBucket hl).wait (t - l.lastRefillTime.toNat)) :=
  ⟨ht, _, stores_toBucket hl, rfl⟩

theorem Holds.wf {l : RateLimiter} {t : ℕ} {b : Bucket} (h : l.Holds t b) : l.WF := by
  obtain ⟨-, b₀, hstores, -⟩ := h
  exact hstores.wf

/-- An untouched limiter stands for the bucket that waited. -/
theorem Holds.wait {l : RateLimiter} {t t' : ℕ} {b : Bucket} (h : l.Holds t b) (ht : t ≤ t') :
    l.Holds t' (b.wait (t' - t)) := by
  obtain ⟨hlast, b₀, hstores, rfl⟩ := h
  refine ⟨by omega, b₀, hstores, ?_⟩
  rw [← Bucket.wait_add]
  congr 1
  omega

theorem Holds.capacity {l : RateLimiter} {t : ℕ} {b : Bucket} (h : l.Holds t b) :
    b.capacity = l.capacity.toNat := by
  obtain ⟨-, b₀, hstores, rfl⟩ := h
  rw [Bucket.capacity_wait, hstores.capacity]

theorem Holds.rate {l : RateLimiter} {t : ℕ} {b : Bucket} (h : l.Holds t b) :
    b.rate = l.refillPerSecond.toNat := by
  obtain ⟨-, b₀, hstores, rfl⟩ := h
  rw [Bucket.rate_wait, hstores.rate]

/-- No operation succeeds on a clock the program cannot read. -/
theorem exists_currentTime_of_apply {l l' : RateLimiter} {clock : Clock} (op : Op)
    (h : l.apply clock op = (.ok (), l')) : ∃ now, clock.currentTime = .ok now := by
  cases hclock : clock.currentTime with
  | ok now => exact ⟨now, rfl⟩
  | error e =>
      cases op <;>
        simp [apply, setCapacity, setRate, refill, tryConsume, hclock] at h

/-- A successful operation waits until its clock reading and then acts on the
bucket as the operation of the same name. -/
theorem Holds.apply {l l' : RateLimiter} {t : ℕ} {b : Bucket} {clock : Clock} {op : Op}
    (h : l.Holds t b) (ht : t ≤ clock.seconds) (hop : l.apply clock op = (.ok (), l')) :
    ((b.wait (clock.seconds - t)).apply op.onBucket).1 = true ∧
      l'.Holds clock.seconds ((b.wait (clock.seconds - t)).apply op.onBucket).2 := by
  obtain ⟨now, hclock⟩ := exists_currentTime_of_apply op hop
  obtain ⟨hlast, b₀, hstores, rfl⟩ := h
  have hnow := Clock.toNat_of_currentTime hclock
  obtain ⟨haccepted, hlast', hstores'⟩ := hstores.apply hclock op
  rw [hop] at haccepted hlast' hstores'
  have hwait : (b₀.wait (t - l.lastRefillTime.toNat)).wait (clock.seconds - t) =
      b₀.wait (l.unsettled now) := by
    rw [← Bucket.wait_add, unsettled, hnow]
    congr 1
    omega
  rw [hwait]
  refine ⟨haccepted.symm, ?_, _, hstores', ?_⟩
  · rw [hlast', hnow]
  · rw [hlast', hnow, Nat.sub_self, Bucket.wait_zero]

theorem wf_setCapacity {l l' : RateLimiter} {clock : Clock} {c : UInt64}
    (h : l.setCapacity clock c = (.ok (), l')) :
    l'.WF ∧ l'.lastRefillTime.toNat = clock.seconds := by
  obtain ⟨now, hclock⟩ := exists_currentTime_of_apply (.setCapacity c) h
  rw [setCapacity_eq hclock] at h
  rw [← (Prod.mk.inj h).2]
  exact ⟨Nat.le_refl _, Clock.toNat_of_currentTime hclock⟩

theorem wf_setRate {l l' : RateLimiter} {clock : Clock} {r : UInt64}
    (h : l.setRate clock r = (.ok (), l')) :
    l'.WF ∧ l'.lastRefillTime.toNat = clock.seconds := by
  obtain ⟨now, hclock⟩ := exists_currentTime_of_apply (.setRate r) h
  rw [setRate_eq hclock] at h
  rw [← (Prod.mk.inj h).2]
  exact ⟨wf_refillAt l now 0, Clock.toNat_of_currentTime hclock⟩

end RateLimiter

/-! ## the two limiters of a peer -/

/-- A direction of transfers. -/
inductive Side where
  | outbound
  | inbound
  deriving DecidableEq, Repr

namespace Side

/-- The limiter of a direction. -/
def limiter (side : Side) (p : PeerConfig) : Option RateLimiter :=
  match side with
  | outbound => p.outboundRateLimiter
  | inbound => p.inboundRateLimiter

/-- The parameter configures the limiter of the direction. -/
def Sets (side : Side) : PeerConfigParam → Prop
  | .outboundRateLimit _ => side = outbound
  | .inboundRateLimit _ => side = inbound
  | _ => False

instance (side : Side) : DecidablePred side.Sets := fun c => by
  cases c <;> unfold Sets <;> infer_instance

end Side

namespace Node

/-- The limiter of a direction on the peer of an endpoint id. -/
def limiterAt (n : Node) (side : Side) (eid : UInt32) : Option RateLimiter :=
  (n.peers eid).bind side.limiter

theorem limiterAt_setPeer_self (n : Node) (side : Side) (eid : UInt32) (p : PeerConfig) :
    (n.setPeer eid p).limiterAt side eid = side.limiter p := by
  simp [limiterAt, setPeer]

theorem limiterAt_setPeer_of_ne (n : Node) (side : Side) {eid eid' : UInt32} (p : PeerConfig)
    (h : eid ≠ eid') : (n.setPeer eid' p).limiterAt side eid = n.limiterAt side eid := by
  simp [limiterAt, setPeer, h]

variable (env : Externals)

/-- `amount_received_ld` of the send of a step, when it is to the peer. -/
def sentTo (eid : UInt32) (e : Node × Event) : ℕ :=
  match sends env e with
  | some (params, out, _) =>
      if params.dstEid = eid then out.receipt.amountReceivedLd.toNat else 0
  | none => 0

/-- `sd2ld(amount_sd)` of the delivery of a step, when it is from the peer. -/
def receivedFrom (eid : UInt32) (e : Node × Event) : ℕ :=
  match receives env e with
  | some (params, _) =>
      if params.srcEid = eid then
        ((MsgCodec.amountSd params.message).map fun sd =>
          sd.toNat * e.1.store.ld2sdRate.toNat).getD 0
      else 0
  | none => 0

/-- What a step takes through the limiter of a direction. -/
def taken (side : Side) (eid : UInt32) (e : Node × Event) : ℕ :=
  match side with
  | .outbound => sentTo env eid e
  | .inbound => receivedFrom env eid e

/-- What a step puts back into it: transfers the other way. -/
def given (side : Side) (eid : UInt32) (e : Node × Event) : ℕ :=
  match side with
  | .outbound => receivedFrom env eid e
  | .inbound => sentTo env eid e

/-- The step reconfigures the limiter. -/
def Reconfigures (side : Side) (eid : UInt32) (e : Node × Event) : Prop :=
  ∃ params, configures env e = some params ∧ params.remoteEid = eid ∧ side.Sets params.config

variable {env}

/-! ## what a step does to a limiter -/

/-- The ways an event that does not reconfigure a limiter leaves it, with
what it takes through the limiter and puts back. -/
inductive Touched (old new : Option RateLimiter) : Event → ℕ → ℕ → Prop
  | kept {ev : Event} (h : new = old) : Touched old new ev 0 0
  | consumed {tx : Tx} {a : UInt64}
      (h : onLimiter old (·.apply tx.clock (.tryConsume a)) = .ok new) :
      Touched old new (.tx tx) a.toNat 0
  | refilled {tx : Tx} {a : UInt64}
      (h : onLimiter old (·.apply tx.clock (.refill a)) = .ok new) :
      Touched old new (.tx tx) 0 a.toNat

theorem sentTo_eq (eid : UInt32) {e : Node × Event} {params : SendParams} {out : Send.Outcome}
    {receipt : MessagingReceipt} (h : sends env e = some (params, out, receipt)) :
    sentTo env eid e =
      if params.dstEid = eid then out.receipt.amountReceivedLd.toNat else 0 := by
  rw [sentTo, h]

theorem sentTo_eq_zero (eid : UInt32) {e : Node × Event} (h : sends env e = none) :
    sentTo env eid e = 0 := by
  rw [sentTo, h]

theorem receivedFrom_eq (eid : UInt32) {e : Node × Event} {params : LzReceiveParams}
    {out : LzReceive.Outcome} {amountSd amountLd : UInt64}
    (h : receives env e = some (params, out))
    (hsd : MsgCodec.amountSd params.message = some amountSd)
    (hld : amountSd.toNat * e.1.store.ld2sdRate.toNat = amountLd.toNat) :
    receivedFrom env eid e = if params.srcEid = eid then amountLd.toNat else 0 := by
  rw [receivedFrom, h]
  simp only [hsd, Option.map_some, Option.getD_some, hld]

theorem receivedFrom_eq_zero (eid : UInt32) {e : Node × Event} (h : receives env e = none) :
    receivedFrom env eid e = 0 := by
  rw [receivedFrom, h]

/-- A step that is no transfer takes nothing and gives nothing. -/
theorem touched_of_no_transfer {n n' : Node} {ev : Event} {side : Side} {eid : UInt32}
    (hs : sends env (n, ev) = none) (hr : receives env (n, ev) = none)
    (h : n'.limiterAt side eid = n.limiterAt side eid) :
    Touched (n.limiterAt side eid) (n'.limiterAt side eid) ev (taken env side eid (n, ev))
      (given env side eid (n, ev)) := by
  have ht : taken env side eid (n, ev) = 0 := by
    cases side
    · exact sentTo_eq_zero eid hs
    · exact receivedFrom_eq_zero eid hr
  have hg : given env side eid (n, ev) = 0 := by
    cases side
    · exact receivedFrom_eq_zero eid hr
    · exact sentTo_eq_zero eid hs
  rw [ht, hg]
  exact .kept h

/-- Configuring one thing of a peer leaves its other limiter alone. -/
theorem limiter_updated {clock : Clock} {old peer : PeerConfig} {config : PeerConfigParam}
    {side : Side} (h : SetPeerConfig.Updated env clock old config peer)
    (hside : ¬ side.Sets config) : side.limiter peer = side.limiter old := by
  cases h with
  | peerAddress | feeBps | enforcedOptions => cases side <;> rfl
  | outboundRateLimit =>
      cases side with
      | outbound => exact absurd rfl hside
      | inbound => rfl
  | inboundRateLimit =>
      cases side with
      | outbound => rfl
      | inbound => exact absurd rfl hside

/-- A fresh peer has no limiters. -/
theorem limiter_getD_zeroed (n : Node) (side : Side) (eid : UInt32) :
    side.limiter ((n.peers eid).getD .zeroed) = n.limiterAt side eid := by
  unfold limiterAt
  cases n.peers eid with
  | none => cases side <;> rfl
  | some p => rfl

/-- A step touches a limiter that it does not reconfigure in no other way,
and takes and gives just what is said of it. -/
theorem Stepped.touched {n n' : Node} {ev : Event} (h : Stepped env n ev n') (side : Side)
    (eid : UInt32) (hkept : ¬ Reconfigures env side eid (n, ev)) :
    Touched (n.limiterAt side eid) (n'.limiterAt side eid) ev (taken env side eid (n, ev))
      (given env side eid (n, ev)) := by
  cases h with
  | send run h =>
      rename_i clock endpoint acc remaining params out receipt peer outbound inbound
      have hsent := sentTo_eq eid run
      have hreceived : receivedFrom env eid
          (n, .tx ⟨clock, endpoint, .send acc remaining params⟩) = 0 :=
        receivedFrom_eq_zero eid rfl
      by_cases heid : params.dstEid = eid
      · subst heid
        rw [if_pos rfl] at hsent
        have hold : n.limiterAt side params.dstEid = side.limiter peer := by
          rw [limiterAt, h.found, Option.bind_some]
        rw [h.node, limiterAt_setPeer_self, hold]
        cases side with
        | outbound =>
            simp only [taken, given, hsent, hreceived]
            exact .consumed h.consumed
        | inbound =>
            simp only [taken, given, hsent, hreceived]
            exact .refilled h.refilled
      · rw [if_neg heid] at hsent
        rw [h.node, limiterAt_setPeer_of_ne _ _ _ (Ne.symm heid)]
        cases side <;> simp only [taken, given, hsent, hreceived] <;> exact .kept rfl
  | lzReceive run list h =>
      rename_i clock endpoint accounts params out acc remaining peer outbound inbound opened
        amountSd amountLd
      have hreceived := receivedFrom_eq eid run h.decoded h.scaled
      have hsent : sentTo env eid (n, .tx ⟨clock, endpoint, .lzReceive accounts params⟩) = 0 :=
        sentTo_eq_zero eid rfl
      by_cases heid : params.srcEid = eid
      · subst heid
        rw [if_pos rfl] at hreceived
        have hold : n.limiterAt side params.srcEid = side.limiter peer := by
          rw [limiterAt, h.found, Option.bind_some]
        rw [h.node, limiterAt_setPeer_self, hold]
        cases side with
        | outbound =>
            simp only [taken, given, hsent, hreceived]
            exact .refilled h.refilled
        | inbound =>
            simp only [taken, given, hsent, hreceived]
            exact .consumed h.consumed
      · rw [if_neg heid] at hreceived
        rw [h.node, limiterAt_setPeer_of_ne _ _ _ (Ne.symm heid)]
        cases side <;> simp only [taken, given, hsent, hreceived] <;> exact .kept rfl
  | setPeerConfig run h =>
      rename_i clock endpoint acc params peer
      refine touched_of_no_transfer rfl rfl ?_
      rw [h.node]
      by_cases heid : params.remoteEid = eid
      · subst heid
        have hside : ¬ side.Sets params.config := fun hs => hkept ⟨params, run, rfl, hs⟩
        rw [limiterAt_setPeer_self, ← limiter_getD_zeroed, ← limiter_updated h.updated hside]
        cases side <;> rfl
      · exact limiterAt_setPeer_of_ne _ _ _ (Ne.symm heid)
  | setOftConfig h => exact touched_of_no_transfer rfl rfl (by rw [h.node]; rfl)
  | withdrawFee _ h => exact touched_of_no_transfer rfl rfl (by rw [h.node]; rfl)
  | setPause | external => exact touched_of_no_transfer rfl rfl rfl
  | idle h => exact touched_of_no_transfer h.sends h.receives rfl

end Node

/-! ## time along a run -/

/-- The time after an event that follows time `t`. -/
def Event.time (t : ℕ) : Event → ℕ
  | .tx call => call.clock.seconds
  | .external _ => t

/-- Clock readings that never go back, starting no earlier than `t`. -/
def Timed : ℕ → List Event → Prop
  | _, [] => True
  | t, ev :: events => t ≤ ev.time t ∧ Timed (ev.time t) events

/-- The last clock reading, `t` when there is none. -/
def endTime : ℕ → List Event → ℕ
  | t, [] => t
  | t, ev :: events => endTime (ev.time t) events

theorem timed_append {t : ℕ} {before after : List Event} :
    Timed t (before ++ after) ↔ Timed t before ∧ Timed (endTime t before) after := by
  induction before generalizing t with
  | nil => simp [Timed, endTime]
  | cons ev before ih => simp only [List.cons_append, Timed, endTime, ih, and_assoc]

theorem le_endTime {t : ℕ} {events : List Event} (h : Timed t events) : t ≤ endTime t events := by
  induction events generalizing t with
  | nil => exact Nat.le_refl t
  | cons ev events ih => exact Nat.le_trans h.1 (ih h.2)

/-- All clock readings are within `t₁` and `t₂`. -/
def Within (t₁ t₂ : ℕ) (events : List Event) : Prop :=
  ∀ tx, .tx tx ∈ events → t₁ ≤ tx.clock.seconds ∧ tx.clock.seconds ≤ t₂

theorem Within.tail {t₁ t₂ : ℕ} {ev : Event} {events : List Event}
    (h : Within t₁ t₂ (ev :: events)) : Within t₁ t₂ events :=
  fun tx htx => h tx (List.mem_cons_of_mem ev htx)

/-- Such a run can as well start at `t₁`, and ends by `t₂`. -/
theorem Within.timed {t₁ t₂ t : ℕ} {events : List Event} (h : Within t₁ t₂ events)
    (ht : Timed t events) :
    Timed (max t t₁) events ∧ endTime (max t t₁) events ≤ max (max t t₁) t₂ := by
  induction events generalizing t with
  | nil => exact ⟨trivial, Nat.le_max_left _ _⟩
  | cons ev events ih =>
      have htail := ih h.tail ht.2
      cases ev with
      | tx tx =>
          obtain ⟨hlo, hhi⟩ := h tx List.mem_cons_self
          have hle : t ≤ tx.clock.seconds := ht.1
          have hmax : max tx.clock.seconds t₁ = tx.clock.seconds := Nat.max_eq_left hlo
          simp only [Timed, endTime, Event.time, hmax] at htail ⊢
          exact ⟨⟨by omega, htail.1⟩, by omega⟩
      | external tokens => exact ⟨⟨Nat.le_refl _, htail.1⟩, htail.2⟩

namespace Node

variable {env : Externals}

/-! ## flows -/

/-- What a step does to a limiter, it does to the bucket. -/
theorem Touched.flows {l : RateLimiter} {new : Option RateLimiter} {ev : Event} {x y t : ℕ}
    {b : Bucket} (h : Touched (some l) new ev x y) (hl : l.Holds t b) (ht : t ≤ ev.time t) :
    ∃ l' b', new = some l' ∧ l'.Holds (ev.time t) b' ∧ b.Flows b' (ev.time t - t) x y := by
  cases h with
  | kept h => exact ⟨l, _, h, hl.wait ht, Bucket.Flows.wait b _⟩
  | @consumed tx a h =>
      obtain ⟨l', hop, rfl⟩ := onLimiter_some.mp h
      obtain ⟨haccepted, hholds⟩ := hl.apply ht hop
      have hwait := Bucket.Flows.wait b (tx.clock.seconds - t)
      simp only [RateLimiter.Op.onBucket, Bucket.apply] at haccepted hholds
      cases hconsume : (b.wait (tx.clock.seconds - t)).tryConsume a.toNat with
      | none => rw [hconsume] at haccepted; contradiction
      | some b' =>
          rw [hconsume] at hholds
          have hflows := hwait.trans (Bucket.Flows.tryConsume hconsume)
          simp only [Nat.add_zero, Nat.zero_add] at hflows
          exact ⟨l', b', rfl, hholds, hflows⟩
  | @refilled tx a h =>
      obtain ⟨l', hop, rfl⟩ := onLimiter_some.mp h
      obtain ⟨-, hholds⟩ := hl.apply ht hop
      have hwait := Bucket.Flows.wait b (tx.clock.seconds - t)
      have hflows := hwait.trans (Bucket.Flows.refill _ a.toNat)
      simp only [Nat.add_zero, Nat.zero_add] at hflows
      exact ⟨l', _, rfl, hholds, hflows⟩

/-- A limiter that is there after a step that does not reconfigure it was
there before. -/
theorem Touched.exists_old {old : Option RateLimiter} {l' : RateLimiter} {ev : Event} {x y : ℕ}
    (h : Touched old (some l') ev x y) : ∃ l, old = some l := by
  cases old with
  | some l => exact ⟨l, rfl⟩
  | none =>
      cases h with
      | kept h => contradiction
      | consumed h => have := isSome_onLimiter h; contradiction
      | refilled h => have := isSome_onLimiter h; contradiction

/-- Along a run that does not reconfigure a limiter, all that is taken
through it and put back into it flows through one bucket. -/
theorem flows_run {side : Side} {eid : UInt32} {events : List Event} {n : Node} {l : RateLimiter}
    {b : Bucket} {t : ℕ} (hset : n.limiterAt side eid = some l) (hl : l.Holds t b)
    (ht : Timed t events)
    (hkept : ∀ e ∈ Run.trace (step env) n events, ¬ Reconfigures env side eid e) :
    ∃ b', b.Flows b' (endTime t events - t)
      ((Run.trace (step env) n events).map (taken env side eid)).sum
      ((Run.trace (step env) n events).map (given env side eid)).sum := by
  induction events generalizing n l b t with
  | nil => exact ⟨b, by simpa [endTime] using Bucket.Flows.refl b⟩
  | cons ev events ih =>
      have htouched := (stepped env n ev).touched side eid
        (hkept _ List.mem_cons_self)
      rw [hset] at htouched
      obtain ⟨l', b', hset', hl', hflows⟩ := htouched.flows hl ht.1
      obtain ⟨b'', hrest⟩ := ih hset' hl' ht.2
        fun e he => hkept e (List.mem_cons_of_mem _ he)
      have htime : endTime (ev.time t) events - ev.time t + (ev.time t - t) =
          endTime (ev.time t) events - t := by
        have h1 := ht.1
        have h2 := le_endTime ht.2
        omega
      refine ⟨b'', ?_⟩
      have hall := hflows.trans hrest
      rw [Nat.add_comm (ev.time t - t), htime] at hall
      simpa only [Run.trace_cons, List.map_cons, List.sum_cons, endTime] using hall

/-! ## limiters in reachable states -/

/-- At time `t`, every limiter is within its capacity and was last touched by
then. -/
def Settled (t : ℕ) (n : Node) : Prop :=
  ∀ side eid l, n.limiterAt side eid = some l → l.WF ∧ l.lastRefillTime.toNat ≤ t

/-- A limiter from `update_rate_limiter`, whatever it was made from. -/
theorem settled_updateRateLimiter {clock : Clock} {old : Option RateLimiter}
    {params : Option RateLimitParams} {l : RateLimiter}
    (hold : ∀ l₀, old = some l₀ → l₀.WF ∧ l₀.lastRefillTime.toNat ≤ clock.seconds)
    (h : SetPeerConfig.updateRateLimiter clock old params = .ok (some l)) :
    l.WF ∧ l.lastRefillTime.toNat ≤ clock.seconds := by
  cases params with
  | none =>
      have hnone := Except.pure_eq_ok.mp h
      contradiction
  | some params =>
      simp only [SetPeerConfig.updateRateLimiter, Except.bind_eq_ok, Except.pure_eq_ok,
        Option.some.injEq] at h
      obtain ⟨l₁, hcapacity, l₂, hrate, rfl⟩ := h
      have hstart : (old.getD .default).WF ∧
          (old.getD .default).lastRefillTime.toNat ≤ clock.seconds := by
        cases old with
        | none => exact ⟨RateLimiter.wf_default, Nat.zero_le _⟩
        | some l₀ => exact hold l₀ rfl
      have h₁ : l₁.WF ∧ l₁.lastRefillTime.toNat ≤ clock.seconds := by
        split at hcapacity
        · obtain ⟨hwf, hlast⟩ := RateLimiter.wf_setCapacity (orFail_eq_ok.mp hcapacity)
          exact ⟨hwf, hlast.le⟩
        · exact Except.pure_eq_ok.mp hcapacity ▸ hstart
      split at hrate
      · obtain ⟨hwf, hlast⟩ := RateLimiter.wf_setRate (orFail_eq_ok.mp hrate)
        exact ⟨hwf, hlast.le⟩
      · exact Except.pure_eq_ok.mp hrate ▸ h₁

/-- The limiter of a direction after it was set. -/
theorem limiter_updated_of_sets {clock : Clock} {old peer : PeerConfig} {config : PeerConfigParam}
    {side : Side} (h : SetPeerConfig.Updated env clock old config peer)
    (hside : side.Sets config) :
    ∃ params, SetPeerConfig.updateRateLimiter clock (side.limiter old) params =
      .ok (side.limiter peer) := by
  cases h with
  | peerAddress | feeBps | enforcedOptions => exact hside.elim
  | outboundRateLimit run | inboundRateLimit run =>
      obtain rfl := hside
      exact ⟨_, run⟩

theorem Stepped.settled {n n' : Node} {ev : Event} {t : ℕ} (h : Stepped env n ev n')
    (hn : n.Settled t) (ht : t ≤ ev.time t) : n'.Settled (ev.time t) := by
  intro side eid l' hl'
  by_cases hre : Reconfigures env side eid (n, ev)
  · obtain ⟨params, hparams, rfl, hside⟩ := hre
    cases h with
    | setPeerConfig run h =>
        rename_i clock endpoint acc params' peer
        obtain rfl : params' = params := Option.some.inj (run.symm.trans hparams)
        obtain ⟨limit, hlimit⟩ := limiter_updated_of_sets h.updated hside
        rw [limiter_getD_zeroed] at hlimit
        have hpeer : side.limiter peer = some l' := by
          rw [← hl', h.node, limiterAt_setPeer_self]
          cases side <;> rfl
        rw [hpeer] at hlimit
        refine settled_updateRateLimiter (fun l₀ hl₀ => ?_) hlimit
        obtain ⟨hwf, hlast⟩ := hn side _ l₀ hl₀
        exact ⟨hwf, Nat.le_trans hlast ht⟩
    | idle h => rw [h.configures] at hparams; contradiction
    | send | lzReceive | setOftConfig | setPause | withdrawFee | external => contradiction
  · have htouched := h.touched side eid hre
    rw [hl'] at htouched
    obtain ⟨l, hl⟩ := htouched.exists_old
    obtain ⟨hwf, hlast⟩ := hn side eid l hl
    rw [hl] at htouched
    obtain ⟨l₁, b', hl₁, hholds, -⟩ := htouched.flows (RateLimiter.holds_toBucket hwf hlast) ht
    rw [Option.some.inj hl₁]
    exact ⟨hholds.wf, hholds.1⟩

theorem settled_final {n : Node} {events : List Event} {t : ℕ} (hn : n.Settled t)
    (ht : Timed t events) : (Run.final (step env) n events).Settled (endTime t events) := by
  induction events generalizing n t with
  | nil => exact hn
  | cons ev events ih => exact ih ((stepped env n ev).settled hn ht.1) ht.2

/-- The flow bound.  In every run from `init_oft` with a clock that does not
go back, take a stretch of it within `t₁` and `t₂` that does not reconfigure
a limiter: what goes through the limiter is at most its capacity, plus its
rate times the span, plus what came the other way.  And in every state
reached no limiter holds more than its capacity. -/
theorem flow_bound (env : Externals) (endpoint : Endpoint) (tokens : Tokens)
    (acc : InitOFT.Accounts) (remaining : List LzAccount) (params : InitOFTParams) (n : Node)
    (hinit : InitOFT.apply env endpoint tokens acc remaining params = .ok n)
    (before during : List Event) (htimed : Timed 0 (before ++ during)) :
    let m := Run.final (step env) n before
    let steps := Run.trace (step env) m during
    (∀ (side : Side) (eid : UInt32) (l : RateLimiter) (t₁ t₂ : ℕ),
      m.limiterAt side eid = some l → Within t₁ t₂ during →
      (∀ e ∈ steps, ¬ Reconfigures env side eid e) →
        (steps.map (taken env side eid)).sum ≤ l.capacity.toNat
          + l.refillPerSecond.toNat * (t₂ - t₁) + (steps.map (given env side eid)).sum) ∧
    ∀ (side : Side) (eid : UInt32) (l : RateLimiter),
      (Run.final (step env) n (before ++ during)).limiterAt side eid = some l →
        l.tokens.toNat ≤ l.capacity.toNat := by
  intro m steps
  have h0 : n.Settled 0 := by
    intro side eid l hl
    rw [limiterAt, (InitOFT.initialized hinit).peers eid] at hl
    contradiction
  obtain ⟨hbefore, hduring⟩ := timed_append.mp htimed
  constructor
  · intro side eid l t₁ t₂ hl hwithin hkept
    obtain ⟨hwf, hlast⟩ := settled_final h0 hbefore side eid l hl
    obtain ⟨hduring', hend⟩ := hwithin.timed hduring
    have hholds := RateLimiter.holds_toBucket hwf (Nat.le_trans hlast (Nat.le_max_left _ t₁))
    obtain ⟨b', hflows⟩ : ∃ b', Bucket.Flows _ b' _ (steps.map (taken env side eid)).sum
      (steps.map (given env side eid)).sum := flows_run hl hholds hduring' hkept
    have hbound := hflows.taken_le
    rw [hholds.capacity, hholds.rate] at hbound
    have hspan : l.refillPerSecond.toNat *
        (endTime (max (endTime 0 before) t₁) during - max (endTime 0 before) t₁) ≤
          l.refillPerSecond.toNat * (t₂ - t₁) := Nat.mul_le_mul_left _ (by omega)
    omega
  · intro side eid l hl
    exact (settled_final h0 htimed side eid l hl).1

/-- An outbound limiter of 3000000 and 1000 a second, half used at time 20:
what a minute then lets through. -/
def limitsRun : List Event := [
  .sample 10 (.sampleSetPeer 30101 (.peerAddress (Pubkey.ofByte 40))),
  .sample 10 (.sampleSetPeer 30101 (.outboundRateLimit (some ⟨some 1000, some 3000000⟩))),
  .sample 20 (.sampleSend 30101 1500000)]

def limitsMinute : List Event :=
  [.sample 30 (.sampleSend 30101 1200000), .sample 90 (.sampleSend 30101 370000)]

theorem flow_bound_example :
    let m := Run.final (step .sample) (sample .adapter (.sample 5000000 .default none)) limitsRun
    let steps := Run.trace (step .sample) m limitsMinute
    (steps.map (taken .sample .outbound 30101)).sum = 1570000 ∧
      (steps.map (taken .sample .outbound 30101)).sum ≤ 3000000 + 1000 * (90 - 30)
        + (steps.map (given .sample .outbound 30101)).sum := by
  have hinit : InitOFT.apply .sample .sample (.sample 5000000 .default none) .sample []
      ⟨.adapter, .ofByte 13, 6, none⟩ = .ok (sample .adapter (.sample 5000000 .default none)) := rfl
  have htimed : Timed 0 (limitsRun ++ limitsMinute) := by
    simp only [limitsRun, limitsMinute, List.cons_append, List.nil_append, Timed, Event.time,
      Event.sample]
    decide
  have hwithin : Within 30 90 limitsMinute := by
    intro tx htx
    simp only [limitsMinute, Event.sample, List.mem_cons, Event.tx.injEq, List.not_mem_nil,
      or_false] at htx
    rcases htx with rfl | rfl <;> decide
  obtain ⟨hbound, -⟩ := flow_bound _ _ _ _ _ _ _ hinit limitsRun limitsMinute htimed
  refine ⟨by decide +kernel, hbound .outbound 30101 ⟨3000000, 1500000, 1000, 20⟩ 30 90
    (by decide +kernel) hwithin ?_⟩
  intro e he
  simp only [limitsMinute, Run.trace_cons, Run.trace_nil, List.mem_cons, List.not_mem_nil,
    or_false] at he
  rcases he with rfl | rfl <;> exact fun ⟨_, h, _⟩ => nomatch h

end Node

end CrossChain
