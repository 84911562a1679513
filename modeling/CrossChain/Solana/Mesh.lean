import CrossChain.Lib.ValueNet
import CrossChain.Solana.Program

/-!
# CrossChain.Solana.Mesh

Any number of stores that send to one another, and the messages in flight
between them.

The endpoint delivers what was sent, as it was sent, and once: `clear`
succeeds for a message in flight only, and takes it out of flight.  A store
puts value on the wire by locking it or by burning it; its `stake` is the
one or the other, net, in local decimals.  So a mesh keeps `Books`
(`Stepped.books`), and in shared decimals its stakes sum to what is in
flight.
-/

namespace CrossChain

/-- A message in flight, with the addresses the endpoint delivers it by. -/
structure Packet where
  srcEid : UInt32
  sender : FixedBytes 32
  dstEid : UInt32
  receiver : FixedBytes 32
  nonce : UInt64
  guid : FixedBytes 32
  message : List UInt8
  deriving DecidableEq, Repr

/-- The amount a message carries, in shared decimals. -/
def Packet.amountSd (p : Packet) : ℕ := ((MsgCodec.amountSd p.message).map (·.toNat)).getD 0

/-- The message that a `clear` call at endpoint `dstEid` is about. -/
def ClearParams.packet (c : ClearParams) (dstEid : UInt32) : Packet :=
  ⟨c.srcEid, c.sender, dstEid, c.receiver, c.nonce, c.guid, c.message⟩

/-- An event at endpoint `dstEid`, where `clear` succeeds for messages in
flight only. -/
def Event.clearing (flight : List Packet) (dstEid : UInt32) : Event → Event
  | .tx ⟨clock, endpoint, instruction⟩ =>
      .tx ⟨clock, { endpoint with
        clear := fun accounts c => endpoint.clear accounts c && decide (c.packet dstEid ∈ flight) },
        instruction⟩
  | .external tokens => .external tokens

/-- The stores of a mesh, the messages in flight, and what each store has
burned by `send` and minted by `lz_receive` so far. -/
structure Mesh (ι : Type) where
  node : ι → Node
  flight : List Packet
  burned : ι → ℕ
  minted : ι → ℕ

namespace Mesh

variable {ι : Type} [DecidableEq ι] (env : ι → Externals) (eid : ι → UInt32)

/-- A mesh of stores before any message. -/
def start (node : ι → Node) : Mesh ι := ⟨node, [], fun _ => 0, fun _ => 0⟩

/-- An event at store `i`. -/
def step (m : Mesh ι) (a : ι × Event) : Mesh ι :=
  let i := a.1
  let n := m.node i
  let ev := a.2.clearing m.flight (eid i)
  let n' := n.step (env i) ev
  let m' := { m with node := Function.update m.node i n' }
  match Node.sends (env i) (n, ev), Node.receives (env i) (n, ev) with
  | some (_, out, receipt), _ =>
      { m' with
        flight := ⟨eid i, n.key, out.request.dstEid, out.request.receiver, receipt.nonce,
          receipt.guid, out.request.message⟩ :: m.flight
        burned := Function.update m.burned i
          (m.burned i + (n.tokens.mint.supply.toNat - n'.tokens.mint.supply.toNat)) }
  | none, some (_, out) =>
      { m' with
        flight := m.flight.erase (out.clear.packet (eid i))
        minted := Function.update m.minted i
          (m.minted i + (n'.tokens.mint.supply.toNat - n.tokens.mint.supply.toNat)) }
  | none, none => m'

/-- `ld2sd_rate` of a store. -/
def rate (m : Mesh ι) (i : ι) : ℤ := (m.node i).store.ld2sdRate.toNat

/-- What a store has put on the wire, net, in its local decimals: the value
locked in an adapter, what a native store burned less what it minted. -/
def stake (m : Mesh ι) (i : ι) : ℤ :=
  if (m.node i).store.oftType = .adapter then (m.node i).store.tvlLd.toNat
  else m.burned i - m.minted i

/-- The books of the mesh, in which a unit of value is a shared decimal. -/
def books (m : Mesh ι) : Books ι := ⟨m.rate, m.stake, m.flight.map Packet.amountSd⟩

end Mesh

/-! ## what a transfer does to the stake -/

namespace Node

variable {env : Externals}

/-- What a send locks or burns is what its message carries. -/
theorem Stepped.sent {n n' : Node} {ev : Event} {params : SendParams} {out : Send.Outcome}
    {receipt : MessagingReceipt} (h : Stepped env n ev n')
    (hs : sends env (n, ev) = some (params, out, receipt)) :
    ∃ sd : UInt64, MsgCodec.amountSd out.request.message = some sd ∧
      n.store.ld2sdRate.toNat ≠ 0 ∧
      (n.store.oftType = .adapter →
        n'.store.tvlLd.toNat = n.store.tvlLd.toNat + sd.toNat * n.store.ld2sdRate.toNat) ∧
      (n.store.oftType = .native →
        n'.tokens.mint.supply.toNat + sd.toNat * n.store.ld2sdRate.toNat =
          n.tokens.mint.supply.toNat) := by
  cases h with
  | send run h =>
      rename_i clock endpoint acc remaining params' out' receipt' peer outbound inbound
      obtain ⟨rfl, rfl, rfl⟩ : params' = params ∧ out' = out ∧ receipt' = receipt := by
        simpa only [Option.some.injEq, Prod.mk.injEq] using run.symm.trans hs
      have hcharged := charged h.amounts
      obtain ⟨sd, hsd, hmessage⟩ := h.message
      have hexact : sd.toNat * n.store.ld2sdRate.toNat = out'.receipt.amountReceivedLd.toNat := by
        rw [← hsd]
        exact Nat.div_mul_cancel hcharged.dvd_received
      refine ⟨sd, ?_, hcharged.rate_ne_zero, fun hadapter => ?_, fun hnative => ?_⟩
      · rw [hmessage, MsgCodec.amountSd_encode]
      · rw [hexact]
        exact (h.taken.adapter hadapter).1
      · obtain ⟨-, burnt, burnLd, hsub, hburned, hfee⟩ := h.taken.native hnative
        have hnet := hcharged.native hnative
        have hsupply := hburned.supply
        have hmint : out'.node.tokens.mint = burnt.mint := by
          rcases hfee with ⟨-, hsame⟩ | hmoved
          · exact congrArg Tokens.mint hsame
          · exact hmoved.mint
        rw [hexact, hmint]
        omega
  | idle h => rw [h.sends] at hs; contradiction
  | lzReceive | setOftConfig | setPeerConfig | setPause | withdrawFee | external => contradiction

/-- What a delivery unlocks or mints is what its message carries. -/
theorem Stepped.received {n n' : Node} {ev : Event} {params : LzReceiveParams}
    {out : LzReceive.Outcome} (h : Stepped env n ev n')
    (hr : receives env (n, ev) = some (params, out)) :
    ∃ sd : UInt64, MsgCodec.amountSd out.clear.message = some sd ∧
      (n.store.oftType = .adapter →
        n'.store.tvlLd.toNat + sd.toNat * n.store.ld2sdRate.toNat = n.store.tvlLd.toNat) ∧
      (n.store.oftType = .native →
        n'.tokens.mint.supply.toNat =
          n.tokens.mint.supply.toNat + sd.toNat * n.store.ld2sdRate.toNat) := by
  cases h with
  | lzReceive run list h =>
      rename_i clock endpoint accounts params' out' acc remaining peer outbound inbound opened
        amountSd amountLd
      obtain ⟨rfl, rfl⟩ : params' = params ∧ out' = out := by
        simpa only [Option.some.injEq, Prod.mk.injEq] using run.symm.trans hr
      refine ⟨amountSd, by rw [h.clear]; exact h.decoded, fun hadapter => ?_, fun hnative => ?_⟩
      · rw [h.scaled]
        exact (h.released.adapter hadapter).1
      · have hsupply := (h.released.native hnative).2.1.supply
        rw [h.opens.mint] at hsupply
        rw [h.scaled]
        exact hsupply
  | idle h => rw [h.receives] at hr; contradiction
  | send | setOftConfig | setPeerConfig | setPause | withdrawFee | external => contradiction

/-- No other step moves the value locked, or, if it is a transaction, the
supply. -/
theorem Stepped.rest {n n' : Node} {ev : Event} (h : Stepped env n ev n')
    (hs : sends env (n, ev) = none) (hr : receives env (n, ev) = none) :
    n'.store.tvlLd = n.store.tvlLd ∧
      (n'.tokens.mint.supply = n.tokens.mint.supply ∨ ev = .external n'.tokens) := by
  cases h with
  | send run _ => rw [run] at hs; contradiction
  | lzReceive run _ _ => rw [run] at hr; contradiction
  | setOftConfig h => exact ⟨h.tvlLd, .inl (by rw [h.node])⟩
  | setPeerConfig _ h => rw [h.node]; exact ⟨rfl, .inl rfl⟩
  | withdrawFee _ h => exact ⟨by rw [h.node], .inl (by rw [h.moved.mint])⟩
  | setPause | idle => exact ⟨rfl, .inl rfl⟩
  | external => exact ⟨rfl, .inr rfl⟩

/-- A message that was delivered was in flight. -/
theorem Stepped.mem_flight {n n' : Node} {ev ev' : Event} {flight : List Packet} {dstEid : UInt32}
    {params : LzReceiveParams} {out : LzReceive.Outcome} (h : Stepped env n ev' n')
    (hev : ev.clearing flight dstEid = ev') (hr : receives env (n, ev') = some (params, out)) :
    out.clear.packet dstEid ∈ flight := by
  cases h with
  | lzReceive run list hd =>
      rename_i clock endpoint accounts params' out' acc remaining peer outbound inbound opened
        amountSd amountLd
      obtain ⟨rfl, rfl⟩ : params' = params ∧ out' = out := by
        simpa only [Option.some.injEq, Prod.mk.injEq] using run.symm.trans hr
      cases ev with
      | tx tx =>
          obtain ⟨clock', endpoint', instruction'⟩ := tx
          simp only [Event.clearing, Event.tx.injEq, Tx.mk.injEq] at hev
          have hcleared := hd.cleared
          rw [← hev.2.1, Bool.and_eq_true, decide_eq_true_eq] at hcleared
          exact hcleared.2
      | external => contradiction
  | idle hidle => rw [hidle.receives] at hr; contradiction
  | send | setOftConfig | setPeerConfig | setPause | withdrawFee | external => contradiction

end Node

/-! ## one step of a mesh -/

namespace Mesh

variable {ι : Type} [DecidableEq ι] (env : ι → Externals) (eid : ι → UInt32)

/-- The ways a step at store `i` goes, the store ending as `n'`. -/
inductive Stepped (m : Mesh ι) (i : ι) (ev : Event) (n' : Node) : Mesh ι → Prop
  | sent {params : SendParams} {out : Send.Outcome} {receipt : MessagingReceipt}
      (run : Node.sends (env i) (m.node i, ev) = some (params, out, receipt)) :
      Stepped m i ev n' {
        node := Function.update m.node i n'
        flight := ⟨eid i, (m.node i).key, out.request.dstEid, out.request.receiver, receipt.nonce,
          receipt.guid, out.request.message⟩ :: m.flight
        burned := Function.update m.burned i
          (m.burned i + ((m.node i).tokens.mint.supply.toNat - n'.tokens.mint.supply.toNat))
        minted := m.minted }
  | received {params : LzReceiveParams} {out : LzReceive.Outcome}
      (run : Node.receives (env i) (m.node i, ev) = some (params, out)) :
      Stepped m i ev n' {
        node := Function.update m.node i n'
        flight := m.flight.erase (out.clear.packet (eid i))
        burned := m.burned
        minted := Function.update m.minted i
          (m.minted i + (n'.tokens.mint.supply.toNat - (m.node i).tokens.mint.supply.toNat)) }
  | rest (sends : Node.sends (env i) (m.node i, ev) = none)
      (receives : Node.receives (env i) (m.node i, ev) = none) :
      Stepped m i ev n' { m with node := Function.update m.node i n' }

variable {env eid}

theorem stepped (m : Mesh ι) (i : ι) (ev : Event) :
    Stepped env eid m i (ev.clearing m.flight (eid i))
      ((m.node i).step (env i) (ev.clearing m.flight (eid i))) (m.step env eid (i, ev)) := by
  unfold step
  simp only
  split
  · next hs => exact .sent hs
  · next hr => exact .received hr
  · next hs hr => exact .rest hs hr

theorem Stepped.node {m m' : Mesh ι} {i : ι} {ev : Event} {n' : Node}
    (h : Stepped env eid m i ev n' m') : m'.node = Function.update m.node i n' := by
  cases h <;> rfl

/-- What `init_oft` fixed stays in every store. -/
theorem origin_step (m : Mesh ι) (a : ι × Event) (j : ι) :
    ((m.step env eid a).node j).store.origin = (m.node j).store.origin := by
  rw [(stepped m a.1 a.2).node]
  by_cases hj : j = a.1
  · subst hj
    rw [Function.update_self]
    exact (Node.stepped _ _ _).origin
  · rw [Function.update_of_ne hj]

/-- A step at store `i` moves no stake but its own. -/
theorem books_step {m m' : Mesh ι} {i : ι} {δ : ℤ} {n' : Node}
    (hnode : m'.node = Function.update m.node i n')
    (hburned : ∀ j, j ≠ i → m'.burned j = m.burned j)
    (hminted : ∀ j, j ≠ i → m'.minted j = m.minted j)
    (horigin : n'.store.origin = (m.node i).store.origin)
    (hstake : m'.stake i = m.stake i + δ * m.rate i)
    (hmove : Books.Step m.books (m.books.move i δ (m'.flight.map Packet.amountSd))) :
    Books.Step m.books m'.books := by
  refine .of_stake (fun j => ?_) (fun j hj => ?_) hstake hmove
  · simp only [books, rate, hnode]
    by_cases hj : j = i
    · subst hj
      rw [Function.update_self, show n'.store.ld2sdRate = (m.node j).store.ld2sdRate from
        congrArg (fun o => o.2.1) horigin]
    · rw [Function.update_of_ne hj]
  · simp only [books, stake, hnode, Function.update_of_ne hj, hburned j hj, hminted j hj]

theorem amountSd_eq {p : Packet} {sd : UInt64} (h : MsgCodec.amountSd p.message = some sd) :
    p.amountSd = sd.toNat := by
  rw [Packet.amountSd, h]
  rfl

/-- Every message in flight carries an amount. -/
def Decodes (m : Mesh ι) : Prop := ∀ p ∈ m.flight, (MsgCodec.amountSd p.message).isSome

/-- A step of a mesh is a step of its books: a message goes on the wire with
what was put on it, or comes off with what was taken off it. -/
theorem Stepped.books {m m' : Mesh ι} {i : ι} {ev ev' : Event} {n' : Node}
    (h : Stepped env eid m i ev' n' m') (hev : ev.clearing m.flight (eid i) = ev')
    (hn : Node.Stepped (env i) (m.node i) ev' n') (hm : m.Decodes) :
    Books.Step m.books m'.books ∧ m'.Decodes := by
  have htype : n'.store.oftType = (m.node i).store.oftType := congrArg (fun o => o.1) hn.origin
  cases h with
  | sent run =>
      obtain ⟨sd, hsd, -, hadapter, hnative⟩ := hn.sent run
      refine ⟨books_step (δ := sd.toNat) rfl (fun j hj => Function.update_of_ne hj _ _)
        (fun _ _ => rfl) hn.origin ?_ ?_, List.forall_mem_cons.mpr ⟨by rw [hsd]; rfl, hm⟩⟩
      · simp only [stake, rate, Function.update_self, htype]
        cases hoft : (m.node i).store.oftType with
        | adapter =>
            rw [if_pos rfl, if_pos rfl, hadapter hoft]
            push_cast
            rfl
        | native =>
            rw [if_neg nofun, if_neg nofun, ← hnative hoft, Nat.add_sub_cancel_left]
            push_cast
            omega
      · rw [List.map_cons, amountSd_eq hsd]
        exact .send i sd.toNat
  | received run =>
      obtain ⟨sd, hsd, hadapter, hnative⟩ := hn.received run
      have hperm := (List.perm_cons_erase (hn.mem_flight hev run)).map Packet.amountSd
      rw [List.map_cons, amountSd_eq hsd] at hperm
      refine ⟨books_step (δ := -sd.toNat) rfl (fun _ _ => rfl)
        (fun j hj => Function.update_of_ne hj _ _) hn.origin ?_ (.receive i sd.toNat _ hperm),
        fun p hp => hm p (List.mem_of_mem_erase hp)⟩
      simp only [stake, rate, Function.update_self, htype]
      cases hoft : (m.node i).store.oftType with
      | adapter =>
          rw [if_pos rfl, if_pos rfl, ← hadapter hoft]
          push_cast
          rw [neg_mul, add_neg_cancel_right]
      | native =>
          rw [if_neg nofun, if_neg nofun, hnative hoft, Nat.add_sub_cancel_left]
          push_cast
          rw [neg_mul]
          omega
  | rest hs hr =>
      refine ⟨books_step (δ := 0) rfl (fun _ _ => rfl) (fun _ _ => rfl) hn.origin ?_ ?_, hm⟩
      · simp only [stake, rate, Function.update_self, htype, (hn.rest hs hr).1]
        rw [zero_mul, add_zero]
      · exact Books.step_move_zero m.books i

/-! ## whole runs -/

/-- What every run of a mesh keeps. -/
structure Conserved (m : Mesh ι) : Prop where
  books : m.books.Sound
  decodes : m.Decodes

theorem conserved_step (m : Mesh ι) (a : ι × Event) (hm : m.Conserved) :
    (m.step env eid a).Conserved := by
  obtain ⟨hbooks, hdecodes⟩ := (stepped m a.1 a.2).books rfl (Node.stepped _ _ _) hm.decodes
  exact ⟨hbooks.sound hm.books, hdecodes⟩

theorem conserved_start {node : ι → Node} (hinit : ∀ i, InitOFT.Created (env i) (node i)) :
    (start node).Conserved := by
  have hstake : ∀ i, (start node).books.stake i = 0 := by
    intro i
    simp only [books, stake, start, (hinit i).tvlLd]
    split <;> rfl
  have hrate : ∀ i, (start node).books.rate i ≠ 0 :=
    fun i => Int.natCast_ne_zero.mpr (hinit i).rate_ne_zero
  refine ⟨⟨Books.exact_of_stake_zero hrate hstake, ?_⟩, by simp [Decodes, start]⟩
  rw [Books.net_of_stake_zero hstake rfl]
  exact .refl

/-- What native stores burned and minted is their whole supply. -/
def Supplied (m : Mesh ι) : Prop :=
  ∀ i, (m.node i).store.oftType = .native →
    (m.node i).tokens.mint.supply.toNat + m.burned i = m.minted i

/-- A step at a native store that is not by other programs, or does not
change its supply if it is. -/
def KeepsSupply (e : Mesh ι × ι × Event) : Prop :=
  (e.1.node e.2.1).store.oftType = .native → ∀ tokens, e.2.2 = .external tokens →
    tokens.mint.supply = (e.1.node e.2.1).tokens.mint.supply

theorem Stepped.supplied {m m' : Mesh ι} {i : ι} {ev ev' : Event} {n' : Node}
    (h : Stepped env eid m i ev' n' m') (hev : ev.clearing m.flight (eid i) = ev')
    (hn : Node.Stepped (env i) (m.node i) ev' n') (hkeeps : KeepsSupply (m, i, ev))
    (hm : m.Supplied) : m'.Supplied := by
  intro j hj
  by_cases hij : j = i
  · subst hij
    have htype : n'.store.oftType = (m.node j).store.oftType := congrArg (fun o => o.1) hn.origin
    have hnative : (m.node j).store.oftType = .native := by
      cases h <;> simpa only [Function.update_self, htype] using hj
    have hsupplied := hm j hnative
    cases h with
    | sent run =>
        obtain ⟨sd, -, -, -, hsupply⟩ := hn.sent run
        have := hsupply hnative
        simp only [Function.update_self]
        omega
    | received run =>
        obtain ⟨sd, -, -, hsupply⟩ := hn.received run
        have := hsupply hnative
        simp only [Function.update_self]
        omega
    | rest hs hr =>
        simp only [Function.update_self]
        obtain ⟨-, hsame | hext⟩ := hn.rest hs hr
        · rw [hsame, hsupplied]
        · cases ev with
          | tx => subst hev; contradiction
          | external tokens =>
              subst hev
              obtain rfl : tokens = n'.tokens := Event.external.inj hext
              rw [hkeeps hnative n'.tokens rfl, hsupplied]
  · cases h with
    | sent | received | rest =>
        simp only [Function.update_of_ne hij] at hj ⊢
        exact hm j hj

theorem supplied_step (m : Mesh ι) (a : ι × Event) (hm : m.Supplied) (hkeeps : KeepsSupply (m, a)) :
    (m.step env eid a).Supplied :=
  (stepped m a.1 a.2).supplied rfl (Node.stepped _ _ _) hkeeps hm

variable [Fintype ι]

omit [DecidableEq ι] in
/-- The two kinds of stake, summed apart. -/
theorem sum_stake (m : Mesh ι) :
    ∑ i, m.stake i / m.rate i =
      ∑ i with (m.node i).store.oftType = .adapter,
          ((m.node i).store.tvlLd.toNat : ℤ) / (m.node i).store.ld2sdRate.toNat +
        ∑ i with (m.node i).store.oftType = .native,
          ((m.burned i : ℤ) - m.minted i) / (m.node i).store.ld2sdRate.toNat := by
  have hnative (i : ι) :
      (m.node i).store.oftType = .native ↔ ¬ (m.node i).store.oftType = .adapter := by
    cases (m.node i).store.oftType <;> simp
  simp only [hnative]
  rw [← Finset.sum_filter_add_sum_filter_not _ fun i => (m.node i).store.oftType = .adapter]
  congr 1
  · refine Finset.sum_congr rfl fun i hi => ?_
    rw [stake, if_pos (Finset.mem_filter.mp hi).2, rate]
  · refine Finset.sum_congr rfl fun i hi => ?_
    rw [stake, if_neg (Finset.mem_filter.mp hi).2, rate]

/-- Where one store is an adapter, the stakes are its value locked less the
supplies of the others. -/
theorem sum_stake_hub {m : Mesh ι} (hdvd : ∀ i, m.rate i ∣ m.stake i) (hm : m.Supplied) {a : ι}
    (ha : ∀ i, (m.node i).store.oftType = .adapter ↔ i = a) :
    ∑ i, m.stake i / m.rate i =
      ((m.node a).store.tvlLd.toNat / (m.node a).store.ld2sdRate.toNat : ℕ) -
        (∑ i ∈ Finset.univ.erase a,
          (m.node i).tokens.mint.supply.toNat / (m.node i).store.ld2sdRate.toNat : ℕ) := by
  rw [← Finset.add_sum_erase _ _ (Finset.mem_univ a)]
  have hadapter : m.stake a / m.rate a =
      ((m.node a).store.tvlLd.toNat / (m.node a).store.ld2sdRate.toNat : ℕ) := by
    rw [stake, if_pos ((ha a).mpr rfl), Mesh.rate, Int.natCast_div]
  have hnative : ∀ i ∈ Finset.univ.erase a, m.stake i / m.rate i =
      -((m.node i).tokens.mint.supply.toNat / (m.node i).store.ld2sdRate.toNat : ℕ) := by
    intro i hi
    have hdvd := hdvd i
    have hnot : ¬ (m.node i).store.oftType = .adapter :=
      fun h => (Finset.mem_erase.mp hi).1 ((ha i).mp h)
    have hsupply := hm i (by cases hoft : (m.node i).store.oftType <;> simp_all)
    have hstake : m.stake i = -((m.node i).tokens.mint.supply.toNat : ℤ) := by
      rw [stake, if_neg hnot]
      omega
    rw [hstake] at hdvd ⊢
    rw [Int.neg_ediv_of_dvd (Int.dvd_neg.mp hdvd), Mesh.rate, Int.natCast_div]
  rw [hadapter, Finset.sum_congr rfl hnative, Finset.sum_neg_distrib, ← Nat.cast_sum,
    sub_eq_add_neg]

/-- One adapter backs the supplies of all other stores and what is in
flight. -/
theorem Conserved.backed {m : Mesh ι} (h : m.Conserved) (hm : m.Supplied) {a : ι}
    (ha : ∀ i, (m.node i).store.oftType = .adapter ↔ i = a) :
    (m.node a).store.tvlLd.toNat / (m.node a).store.ld2sdRate.toNat =
      ∑ i ∈ Finset.univ.erase a,
        (m.node i).tokens.mint.supply.toNat / (m.node i).store.ld2sdRate.toNat +
      (m.flight.map Packet.amountSd).sum := by
  have hsum : ∑ i, m.stake i / m.rate i = ((m.flight.map Packet.amountSd).sum : ℕ) := h.books.sum
  rw [sum_stake_hub h.books.exact.dvd hm ha] at hsum
  omega

/-- Conservation.  In every state a mesh of stores made by `init_oft`
reaches, the value locked in the adapters plus what the native stores burned
less what they minted is, in shared decimals, what is in flight, and no
division leaves a remainder.  So where one store is an adapter, and the
supplies of the others start at zero and are changed by the program only,
the adapter backs them and the messages in flight to the unit. -/
theorem conservation {ι : Type} [DecidableEq ι] [Fintype ι] (env : ι → Externals)
    (eid : ι → UInt32) (node : ι → Node) (hinit : ∀ i, InitOFT.Created (env i) (node i))
    (events : List (ι × Event)) :
    let m := Run.final (step env eid) (start node) events
    ∑ i with (m.node i).store.oftType = .adapter,
          ((m.node i).store.tvlLd.toNat : ℤ) / (m.node i).store.ld2sdRate.toNat +
        ∑ i with (m.node i).store.oftType = .native,
          ((m.burned i : ℤ) - m.minted i) / (m.node i).store.ld2sdRate.toNat =
      ((m.flight.map Packet.amountSd).sum : ℕ) ∧
    m.Decodes ∧
    (∀ i, ((m.node i).store.oftType = .adapter →
        (m.node i).store.ld2sdRate.toNat ∣ (m.node i).store.tvlLd.toNat) ∧
      ((m.node i).store.oftType = .native →
        ((m.node i).store.ld2sdRate.toNat : ℤ) ∣ (m.burned i : ℤ) - m.minted i)) ∧
    ∀ a, (∀ i, (node i).store.oftType = .adapter ↔ i = a) →
      (∀ i, i ≠ a → (node i).tokens.mint.supply = 0) →
      (∀ e ∈ Run.trace (step env eid) (start node) events, KeepsSupply e) →
      (m.node a).store.tvlLd.toNat / (m.node a).store.ld2sdRate.toNat =
        ∑ i ∈ Finset.univ.erase a,
          (m.node i).tokens.mint.supply.toNat / (m.node i).store.ld2sdRate.toNat +
        (m.flight.map Packet.amountSd).sum := by
  intro m
  have hm : m.Conserved :=
    Run.final_of_step conserved_step (conserved_start hinit) events
  refine ⟨(sum_stake m).symm.trans hm.books.sum, hm.decodes, fun i => ?_,
    fun a ha hzero hkeeps => ?_⟩
  · have hdvd : m.rate i ∣ m.stake i := hm.books.exact.dvd i
    rw [stake, rate] at hdvd
    constructor
    · intro hadapter
      rw [if_pos hadapter] at hdvd
      exact Int.natCast_dvd_natCast.mp hdvd
    · intro hnative
      rwa [if_neg (by rw [hnative]; nofun)] at hdvd
  · have hstart : (start node).Supplied := by
      intro i hi
      have hne : i ≠ a := fun h => by
        rw [start, (ha i).mpr h] at hi
        contradiction
      simp [start, hzero i hne]
    have hsupplied : m.Supplied := Run.final_inv_of_trace supplied_step hstart hkeeps
    have horigin : ∀ i, (m.node i).store.origin = (node i).store.origin :=
      Run.final_of_step
        (I := fun m : Mesh ι => ∀ i, (m.node i).store.origin = (node i).store.origin)
        (fun m e h i => (origin_step m e i).trans (h i)) (fun _ => rfl) events
    refine hm.backed hsupplied fun i => ?_
    rw [show (m.node i).store.oftType = (node i).store.oftType from
      congrArg (fun o => o.1) (horigin i)]
    exact ha i

/-- An adapter and a native store whose mint has no supply yet. -/
def sampleStores : Bool → Node
  | true => .sample .adapter (.sample 5000000 .default none)
  | false => .sample .native (.sample 0 Node.sampleKey none)

def sampleEids : Bool → UInt32
  | true => 30168
  | false => 30101

/-- The two are made peers; two transfers are sent and one of them arrives. -/
def sampleRun : List (Bool × Event) := [
  (true, .sample 0 (.sampleSetPeer 30101 (.peerAddress Node.sampleKey))),
  (false, .sample 0 (.sampleSetPeer 30168 (.peerAddress Node.sampleKey))),
  (true, .sample 0 (.sampleSend 30101 2000500)),
  (true, .sample 0 (.sampleSend 30101 1000000)),
  (false, .sample 0 (.sampleReceive (sampleStores false) 30168 Node.sampleKey 2000))]

theorem conservation_example :
    let m := Run.final (step (fun _ => .sample) sampleEids) (start sampleStores) sampleRun
    (m.node false).tokens.mint.supply = 2000000 ∧ m.flight.map Packet.amountSd = [1000] ∧
      (m.node true).store.tvlLd.toNat / (m.node true).store.ld2sdRate.toNat =
        ∑ i ∈ Finset.univ.erase true,
          (m.node i).tokens.mint.supply.toNat / (m.node i).store.ld2sdRate.toNat +
        (m.flight.map Packet.amountSd).sum := by
  have hinit : ∀ i, InitOFT.Created .sample (sampleStores i) := by
    intro i
    cases i with
    | true =>
        exact ⟨.sample, .sample 5000000 .default none, .sample, [],
          ⟨.adapter, .ofByte 13, 6, none⟩, rfl⟩
    | false =>
        exact ⟨.sample, .sample 0 Node.sampleKey none, .sample, [],
          ⟨.native, .ofByte 13, 6, none⟩, rfl⟩
  obtain ⟨-, -, -, hbacked⟩ :=
    conservation (fun _ => .sample) sampleEids sampleStores hinit sampleRun
  refine ⟨by decide +kernel, by decide +kernel, hbacked true ?_ ?_ ?_⟩
  · intro i
    cases i <;> decide
  · intro i hi
    cases i with
    | true => contradiction
    | false => rfl
  · intro e he _ tokens hext
    obtain ⟨before, after, hrun, -⟩ := Run.mem_trace _ he
    have hmem : e.2 ∈ sampleRun := by rw [hrun]; simp
    simp only [sampleRun, Event.sample, List.mem_cons, List.not_mem_nil, or_false] at hmem
    rcases hmem with h | h | h | h | h <;> rw [h] at hext <;> contradiction

end Mesh

end CrossChain
