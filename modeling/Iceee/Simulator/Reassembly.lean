import Iceee.Simulator.Receive

/-!
# Reassembly

What is handed on are the messages of the stream, each once and in order, however the stream
was cut; as long as no processing ends with one or two bytes left, for then a header is read
past the end of the buffer, and a processing that begins with them disconnects the client.
-/

namespace Iceee.Simulator

open Lib

/-- What is handed on of a message that stands at a place of the stream. -/
def handedOf (e : Nat × Message) : Handed where
  msgType := e.2.msgType
  start := e.1 + 3
  size := e.2.payload.length

namespace SimulatorThread

variable {σ : Type*} {H : Handlers σ} {beyond : Nat → UInt8}

/-! ### The loop -/

variable (beyond) in
theorem byteAt_of_drop {s : SimulatorThread σ} {p k : Nat} {xs : List UInt8}
    (h : s.procData.drop p = xs) {b : UInt8} (hb : xs[k]? = some b) :
    s.byteAt beyond (p + k) = b := by
  rw [← h, List.getElem?_drop] at hb
  rw [byteAt, List.getD_eq_getElem?_getD, hb]
  rfl

variable (beyond) in
/-- A header that is read from the buffer. -/
theorem header_of_drop {s : SimulatorThread σ} {p : Nat} {msgType hi lo : UInt8}
    {rest : List UInt8} (h : s.procData.drop p = msgType :: hi :: lo :: rest) :
    s.byteAt beyond p = msgType ∧
      s.shortAt beyond (p + 1) = hi.toNat * 256 + lo.toNat := by
  have h0 := byteAt_of_drop beyond h (k := 0) rfl
  have h1 := byteAt_of_drop beyond h (k := 1) rfl
  have h2 := byteAt_of_drop beyond h (k := 2) rfl
  refine ⟨h0, ?_⟩
  rw [shortAt, h1, h2]

/-- Whether a header would be read past the end of what is left. -/
def short (tail : List UInt8) : Bool := decide (tail.length = 1 ∨ tail.length = 2)

theorem readPast_eq {s : SimulatorThread σ} {p : Nat} (hp : p < s.procData.length) :
    decide (s.procData.length < p + 3) = short (s.procData.drop p) := by
  rw [short, List.length_drop]
  apply decide_eq_decide.mpr
  omega

/-- A turn of the loop with an incomplete message at the front. -/
theorem messageLoop_stop {s : SimulatorThread σ} {p : Nat} (hp : p < s.procData.length)
    (h : Message.next (s.procData.drop p) = none) (fuel : Nat) :
    messageLoop H beyond (fuel + 1) s p (s.procData.length - p : Nat) =
      ({ s with
          firstConnect := false, readPast := s.readPast || short (s.procData.drop p) },
        ((s.procData.length - p : Nat) : Int)) := by
  have hlen : (s.procData.drop p).length = s.procData.length - p := List.length_drop
  have hwait : (s.shortAt beyond (p + 1) : Int) > (s.procData.length - p : Nat) - 3 := by
    match hxs : s.procData.drop p with
    | [] | [_] | [_, _] =>
        rw [hxs] at hlen
        simp only [List.length_cons, List.length_nil] at hlen
        omega
    | msgType :: hi :: lo :: rest =>
        rw [(header_of_drop beyond hxs).2]
        rw [hxs] at h hlen
        simp only [Message.next, ite_eq_right_iff, reduceCtorEq, imp_false, not_le] at h
        simp only [List.length_cons] at hlen
        omega
  have hpos : ((s.procData.length - p : Nat) : Int) > 0 := by omega
  rw [messageLoop, if_pos hpos]
  simp only [if_pos hwait, readPast_eq hp]

variable (H beyond) in
/-- A turn of the loop with a complete message at the front. -/
theorem messageLoop_go {s : SimulatorThread σ} {p n : Nat} {m : Message}
    (h : Message.next (s.procData.drop p) = some (m, n)) (fuel : Nat) :
    ∃ world, messageLoop H beyond (fuel + 1) s p (s.procData.length - p : Nat) =
      messageLoop H beyond fuel
        { s with
          world, firstConnect := false, handed := s.handed ++ [handedOf (s.trimmed + p, m)] }
        (p + n) (s.procData.length - (p + n) : Nat) := by
  have hlen : (s.procData.drop p).length = s.procData.length - p := List.length_drop
  match hxs : s.procData.drop p with
  | [] | [_] | [_, _] =>
      rw [hxs] at h
      cases h
  | msgType :: hi :: lo :: rest =>
      obtain ⟨htype, hsize⟩ := header_of_drop beyond hxs
      rw [hxs] at h hlen
      simp only [Message.next, Option.ite_none_right_eq_some, Option.some.injEq,
        Prod.mk.injEq] at h
      obtain ⟨hle, rfl, rfl⟩ := h
      simp only [List.length_cons] at hlen
      have hpos : ((s.procData.length - p : Nat) : Int) > 0 := by omega
      have hpast : decide (s.procData.length < p + 3) = false := decide_eq_false (by omega)
      have hgo : ¬ ((hi.toNat * 256 + lo.toNat : Nat) : Int) >
          (s.procData.length - p : Nat) - 3 := by omega
      refine ⟨if H.inGame s.world then
          H.handleGameMsg s.world msgType (s.procData.drop (p + 3))
        else H.handleLobbyMsg s.world msgType (s.procData.drop (p + 3)), ?_⟩
      rw [messageLoop, if_pos hpos]
      simp only [hsize, if_neg hgo, htype, hpast, Bool.or_false]
      have hread : p + (hi.toNat * 256 + lo.toNat) + 3 = p + (hi.toNat * 256 + lo.toNat + 3) := by
        omega
      have hremain : ((s.procData.length - p : Nat) : Int) -
          (((hi.toNat * 256 + lo.toNat : Nat) : Int) + 3) =
            (s.procData.length - (p + (hi.toNat * 256 + lo.toNat + 3)) : Nat) := by omega
      rw [hread, hremain]
      simp only [handedOf, List.length_take_of_le hle]

variable (H beyond) in
/-- The loop hands on the complete messages and leaves the rest. -/
theorem messageLoop_spec (fuel : Nat) (s : SimulatorThread σ) (p : Nat)
    (hp : p ≤ s.procData.length) (hfuel : s.procData.length - p ≤ fuel) :
    ∃ world firstConnect,
      messageLoop H beyond fuel s p (s.procData.length - p : Nat) =
        ({ s with
            world, firstConnect
            handed := s.handed ++
              (Message.framing.cut (s.trimmed + p) (s.procData.drop p)).1.map handedOf
            readPast := s.readPast ||
              short (Message.framing.cut (s.trimmed + p) (s.procData.drop p)).2 },
          ((Message.framing.cut (s.trimmed + p) (s.procData.drop p)).2.length : Int)) := by
  induction fuel generalizing s p with
  | zero =>
      have hnil : s.procData.drop p = [] := List.drop_eq_nil_of_le (by omega)
      have hzero : s.procData.length - p = 0 := by omega
      refine ⟨s.world, s.firstConnect, ?_⟩
      rw [hnil, hzero, Framing.cut_of_none rfl]
      simp [messageLoop, short]
  | succ fuel ih =>
      have hlen : (s.procData.drop p).length = s.procData.length - p := List.length_drop
      by_cases hend : p = s.procData.length
      · have hnil : s.procData.drop p = [] := List.drop_eq_nil_of_le hend.ge
        refine ⟨s.world, s.firstConnect, ?_⟩
        rw [hnil, Framing.cut_of_none rfl, ← hlen, hnil]
        simp [messageLoop, short]
      · have hlt : p < s.procData.length := by omega
        cases hn : Message.next (s.procData.drop p) with
        | none =>
            refine ⟨s.world, false, ?_⟩
            rw [messageLoop_stop hlt hn, Framing.cut_of_none hn, hlen]
            simp
        | some e =>
            obtain ⟨m, n⟩ := e
            have hpos := Message.framing.next_pos hn
            have hle := Message.framing.next_le hn
            obtain ⟨world, hgo⟩ := messageLoop_go H beyond hn fuel
            obtain ⟨world', firstConnect, hrest⟩ := ih
              { s with
                world, firstConnect := false
                handed := s.handed ++ [handedOf (s.trimmed + p, m)] } (p + n)
              (by dsimp only; omega) (by dsimp only; omega)
            refine ⟨world', firstConnect, ?_⟩
            have hcut : Message.framing.cut (s.trimmed + p) (s.procData.drop p) = _ :=
              Framing.cut_of_some hn
            rw [hgo, hrest, hcut, List.drop_drop]
            simp [Nat.add_assoc]

/-! ### Processing -/

/-- What is left of a stream after its complete messages. -/
def leftover (bs : List UInt8) : List UInt8 := (Message.framing.cut 0 bs).2

/-- The bytes that were taken by a processing, and those that wait for the next one. -/
def arrived : List Event → List UInt8 × List UInt8 :=
  List.foldl (fun b ev => match ev with
    | .receive chunk => (b.1, b.2 ++ chunk)
    | .handle _ => (b.1 ++ b.2, [])) ([], [])

/-- The stream so far. -/
def received (evs : List Event) : List UInt8 := (arrived evs).1 ++ (arrived evs).2

theorem arrived_snoc_receive (evs : List Event) (chunk : List UInt8) :
    arrived (evs ++ [.receive chunk]) = ((arrived evs).1, (arrived evs).2 ++ chunk) := by
  rw [arrived, List.foldl_append]
  rfl

theorem arrived_snoc_handle (evs : List Event) (t : Nat) :
    arrived (evs ++ [.handle t]) = (received evs, []) := by
  rw [arrived, List.foldl_append]
  rfl

/-- The messages of the stream were handed on, each once and in order, and the rest is kept;
the client is connected, and every header was read from the buffer. -/
structure Reassembled (taken waiting : List UInt8) (s : SimulatorThread σ) : Prop where
  messages : ∃ (ms : List Message) (tail : List UInt8),
    taken = ms.flatMap Message.encode ++ tail ∧ Incomplete tail ∧
      s.handed = (Framing.placed Message.encode 0 ms).map handedOf ∧ s.procData = tail
  waiting : s.recvData = waiting
  connected : s.isConnected = true
  active : s.isThreadActive = true
  inBounds : s.readPast = false

/-- The same with the messages that are cut off the stream. -/
structure Kept (taken waiting : List UInt8) (s : SimulatorThread σ) : Prop where
  handed : s.handed = (Message.framing.cut 0 taken).1.map handedOf
  procData : s.procData = leftover taken
  trimmed : s.trimmed = taken.length - (leftover taken).length
  waiting : s.recvData = waiting
  connected : s.isConnected = true
  active : s.isThreadActive = true
  inBounds : s.readPast = false

variable {taken waiting : List UInt8} {s : SimulatorThread σ}

theorem Kept.reassembled (hk : Kept taken waiting s) : Reassembled taken waiting s := by
  obtain ⟨ms, hms⟩ := Framing.exists_flatMap (F := Message.framing) Message.encode
    (fun h => (Message.eq_encode_of_next h).1) 0 taken
  have htail := Framing.next_tail (F := Message.framing) 0 taken
  have hcut : (Message.framing.cut 0 taken).1 = Framing.placed Message.encode 0 ms := by
    conv_lhs => rw [hms]
    exact congrArg Prod.fst (Framing.cut_flatMap Message.next_encode_append htail 0 ms)
  refine ⟨⟨ms, _, hms, htail, ?_, hk.procData⟩, hk.waiting, hk.connected, hk.active, hk.inBounds⟩
  rw [hk.handed, hcut]

theorem Kept.receive (hk : Kept taken waiting s) (chunk : List UInt8) :
    Kept taken (waiting ++ chunk) (step H beyond s (.receive chunk)) :=
  ⟨hk.handed, hk.procData, hk.trimmed, congrArg (· ++ chunk) hk.waiting, hk.connected, hk.active,
    hk.inBounds⟩

/-- The stream goes on where the buffer begins. -/
theorem Kept.cut_append (hk : Kept taken waiting s) :
    Message.framing.cut 0 (taken ++ waiting) =
      ((Message.framing.cut 0 taken).1 ++
          (Message.framing.cut s.trimmed (s.procData ++ s.recvData)).1,
        (Message.framing.cut s.trimmed (s.procData ++ s.recvData)).2) := by
  rw [Framing.cut_append, hk.procData, hk.waiting, hk.trimmed, Nat.zero_add]
  rfl

variable (H beyond) in
/-- A processing with three bytes or more. -/
theorem handle_of_three_le (hc : s.isConnected = true)
    (hlen : 3 ≤ (s.procData ++ s.recvData).length) (t : Nat) :
    let cut := Message.framing.cut s.trimmed (s.procData ++ s.recvData)
    let s' := step H beyond s (.handle t)
    s'.handed = s.handed ++ cut.1.map handedOf ∧ s'.procData = cut.2 ∧
      s'.trimmed = s.trimmed + ((s.procData ++ s.recvData).length - cut.2.length) ∧
      s'.recvData = [] ∧ s'.isConnected = true ∧ s'.isThreadActive = s.isThreadActive ∧
      s'.readPast = (s.readPast || short cut.2) := by
  intro cut s'
  obtain ⟨world, firstConnect, hloop⟩ := messageLoop_spec H beyond
    (s.procData ++ s.recvData).length
    { s with
      procData := s.procData ++ s.recvData, recvData := [], LastRecv := t
      PendingHeartbeatResponse := 0, TotalMessageReceived := s.TotalMessageReceived + 1 }
    0 (Nat.zero_le _) (Nat.sub_le _ _)
  simp only [Nat.sub_zero, List.drop_zero, Nat.add_zero] at hloop
  have htail := (Framing.tail_eq_drop (F := Message.framing) s.trimmed
    (s.procData ++ s.recvData)).2
  have hconn : ¬ s.isConnected = false := by simp [hc]
  have hzero : ¬ (s.procData ++ s.recvData).length = 0 := by omega
  have hthree : ¬ (((s.procData ++ s.recvData).length : Nat) : Int) < 3 := by omega
  have hs' : s' = { s with
      procData := cut.2, recvData := [], LastRecv := t, PendingHeartbeatResponse := 0
      TotalMessageReceived := s.TotalMessageReceived + 1, world, firstConnect
      handed := s.handed ++ cut.1.map handedOf
      trimmed := s.trimmed + ((s.procData ++ s.recvData).length - cut.2.length)
      readPast := s.readPast || short cut.2 } := by
    simp only [s', step, handleReceivedMessage2, if_neg hconn, if_neg hzero, if_neg hthree, hloop,
      Int.toNat_natCast, ← htail]
    split
    · next h =>
        have hnil : cut.2 = [] := List.length_eq_zero_iff.mp (Int.natCast_eq_zero.mp h)
        simp only [cut] at hnil ⊢
        simp only [hnil]
    · rfl
  rw [hs']
  exact ⟨rfl, rfl, rfl, rfl, hc, rfl, rfl⟩

theorem cut_of_lt_three {bs : List UInt8} (h : bs.length < 3) (place : Nat) :
    Message.framing.cut place bs = ([], bs) := by
  apply Framing.cut_of_none
  match bs, h with
  | [], _ | [_], _ | [_, _], _ => rfl

theorem handle_of_nil (h : s.procData ++ s.recvData = []) (t : Nat) :
    step H beyond s (.handle t) = s := by
  obtain ⟨h1, h2⟩ := List.append_eq_nil_iff.mp h
  obtain ⟨recvData, procData⟩ := s
  subst h1 h2
  rw [step, handleReceivedMessage2]
  simp

theorem handle_of_lt_three (hc : s.isConnected = true)
    (hpos : 0 < (s.procData ++ s.recvData).length) (hlt : (s.procData ++ s.recvData).length < 3)
    (t : Nat) : (step H beyond s (.handle t)).isThreadActive = false := by
  have hconn : ¬ s.isConnected = false := by simp [hc]
  have hthree : (((s.procData ++ s.recvData).length : Nat) : Int) < 3 := by omega
  simp only [step, handleReceivedMessage2, if_neg hconn, if_neg hpos.ne', if_pos hthree,
    disconnect]

/-- A processing that does not end with one or two bytes left. -/
theorem Kept.handle (hk : Kept taken waiting s)
    (hshort : short (leftover (taken ++ waiting)) = false) (t : Nat) :
    Kept (taken ++ waiting) [] (step H beyond s (.handle t)) := by
  have hcut := hk.cut_append
  have hleft : leftover (taken ++ waiting) =
      (Message.framing.cut s.trimmed (s.procData ++ s.recvData)).2 := by rw [leftover, hcut]
  have hlenT := (Framing.tail_eq_drop (F := Message.framing) 0 taken).1
  have hlenB : s.procData.length + s.recvData.length =
      (leftover taken).length + waiting.length := by rw [hk.procData, hk.waiting]
  by_cases hzero : (s.procData ++ s.recvData).length = 0
  · have hnil := List.length_eq_zero_iff.mp hzero
    have hwait : waiting = [] := hk.waiting ▸ (List.append_eq_nil_iff.mp hnil).2
    subst hwait
    rw [handle_of_nil hnil, List.append_nil]
    exact hk
  · by_cases hthree : 3 ≤ (s.procData ++ s.recvData).length
    · obtain ⟨h1, h2, h3, h4, h5, h6, h7⟩ :=
        handle_of_three_le H beyond hk.connected hthree t
      have hlen' := (Framing.tail_eq_drop (F := Message.framing) s.trimmed
        (s.procData ++ s.recvData)).1
      constructor
      · rw [h1, hk.handed, hcut, List.map_append]
      · rw [h2, hleft]
      · have htrim := hk.trimmed
        rw [h3, hleft]
        simp only [List.length_append] at hlen' ⊢
        unfold leftover at hlenB htrim
        omega
      · exact h4
      · exact h5
      · exact h6.trans hk.active
      · rw [h7, hk.inBounds, ← hleft, hshort]
        rfl
    · rw [hleft, cut_of_lt_three (by omega), short, decide_eq_false_iff_not] at hshort
      dsimp only at hshort
      omega

/-- A processing that does. -/
theorem Kept.handle_short (hk : Kept taken waiting s)
    (hshort : short (leftover (taken ++ waiting)) = true) (t : Nat) :
    (step H beyond s (.handle t)).isThreadActive = false ∨
      (step H beyond s (.handle t)).readPast = true := by
  have hleft : leftover (taken ++ waiting) =
      (Message.framing.cut s.trimmed (s.procData ++ s.recvData)).2 := by
    rw [leftover, hk.cut_append]
  rw [hleft] at hshort
  by_cases hthree : 3 ≤ (s.procData ++ s.recvData).length
  · right
    obtain ⟨-, -, -, -, -, -, hpast⟩ :=
      handle_of_three_le H beyond hk.connected hthree t
    rw [hpast, hshort, Bool.or_true]
  · left
    have hlt : (s.procData ++ s.recvData).length < 3 := by omega
    rw [cut_of_lt_three hlt, short, decide_eq_true_eq] at hshort
    dsimp only at hshort
    exact handle_of_lt_three hk.connected (by omega) hlt t

/-! ### Runs -/

/-- A client that has just connected. -/
def connected (world : σ) : SimulatorThread σ := { world }

/-- No processing ends with one or two bytes of a message left. -/
def Whole (evs : List Event) : Prop :=
  ∀ pre t, pre ++ [.handle t] <+: evs → short (leftover (received pre)) = false

theorem whole_snoc {evs : List Event} {ev : Event} :
    Whole (evs ++ [ev]) ↔
      Whole evs ∧ ∀ t, ev = .handle t → short (leftover (received evs)) = false := by
  constructor
  · intro h
    refine ⟨fun pre t hpre => h pre t (hpre.trans (List.prefix_append _ _)), ?_⟩
    rintro t rfl
    exact h evs t List.prefix_rfl
  · rintro ⟨h, hlast⟩ pre t hpre
    rcases List.prefix_concat_iff.mp hpre with heq | hpre
    · obtain ⟨rfl, hev⟩ := List.append_inj' heq rfl
      exact hlast t (List.singleton_inj.mp hev).symm
    · exact h pre t hpre

theorem run_snoc (s : SimulatorThread σ) (evs : List Event) (ev : Event) :
    run H beyond s (evs ++ [ev]) = step H beyond (run H beyond s evs) ev :=
  List.foldl_concat ..

variable (H beyond) in
theorem kept_of_whole (world : σ) {evs : List Event} (h : Whole evs) :
    Kept (arrived evs).1 (arrived evs).2 (run H beyond (connected world) evs) := by
  induction evs using List.reverseRecOn with
  | nil => exact ⟨rfl, rfl, rfl, rfl, rfl, rfl, rfl⟩
  | append_singleton evs ev ih =>
      obtain ⟨hevs, hlast⟩ := whole_snoc.mp h
      have hk := ih hevs
      rw [run_snoc]
      cases ev with
      | receive chunk =>
          rw [arrived_snoc_receive]
          exact hk.receive chunk
      | handle t =>
          rw [arrived_snoc_handle]
          exact hk.handle (hlast t rfl) t

/-- The stream is reassembled at every moment exactly when no processing ends with one or
two bytes of a message left. -/
theorem reassembled_iff_whole (H : Handlers σ) (beyond : Nat → UInt8) (world : σ)
    (evs : List Event) :
    (∀ pre, pre <+: evs →
        Reassembled (arrived pre).1 (arrived pre).2 (run H beyond (connected world) pre)) ↔
      Whole evs := by
  constructor
  · intro h
    induction evs using List.reverseRecOn with
    | nil =>
        intro pre t hpre
        cases pre with
        | nil => cases List.prefix_nil.mp hpre
        | cons _ _ => cases List.prefix_nil.mp hpre
    | append_singleton evs ev ih =>
        have hevs := ih fun pre hpre => h pre (hpre.trans (List.prefix_append _ _))
        refine whole_snoc.mpr ⟨hevs, ?_⟩
        rintro t rfl
        by_contra hshort
        have hr := h _ List.prefix_rfl
        rw [run_snoc] at hr
        rcases (kept_of_whole H beyond world hevs).handle_short
          (Bool.eq_true_of_not_eq_false hshort) t with hbad | hbad
        · rw [hr.active] at hbad
          cases hbad
        · rw [hr.inBounds] at hbad
          cases hbad
  · intro h pre hpre
    apply Kept.reassembled
    apply kept_of_whole
    intro pre' t hpre'
    exact h pre' t (hpre'.trans hpre)

/-- Message handlers that do nothing. -/
def idle : Handlers Unit where
  inGame _ := true
  handleGameMsg w _ _ := w
  handleLobbyMsg w _ _ := w

/-- A message whose header arrives in two pieces disconnects the client, and behind a complete
message a piece of a header is read past the end of the buffer. -/
theorem not_reassembled_of_cut_header :
    (¬ ∀ pre, pre <+: [.receive [1, 0], .handle 0, .receive [0], .handle 1] →
        Reassembled (arrived pre).1 (arrived pre).2 (run idle 0 (connected ()) pre)) ∧
      ¬ ∀ pre, pre <+: [.receive [1, 0, 0, 1], .handle 0, .receive [0, 0], .handle 1] →
        Reassembled (arrived pre).1 (arrived pre).2 (run idle 0 (connected ()) pre) := by
  constructor
  · intro h
    have hactive := (h _ List.prefix_rfl).active
    revert hactive
    decide
  · intro h
    have hpast := (h _ List.prefix_rfl).inBounds
    revert hpast
    decide

end SimulatorThread

end Iceee.Simulator
