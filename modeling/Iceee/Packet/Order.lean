import Iceee.Lib.Keyed
import Iceee.Packet.Manager

/-!
# Packets are sent in order

For every socket the bytes that went to the kernel and those in the three lists are in the
order in which they were queued. Unless a send failed none is missing, so what went to the
kernel is the front.
-/

namespace Iceee.Packets

open Lib

/-- The bytes that an entry holds. -/
def PendingSocket.bytes (p : PendingSocket) : List UInt8 := p.mPacketList.flatten

/-- The bytes that a list of entries holds for a socket. -/
def pending (l : List PendingSocket) (socket : Int) : List UInt8 :=
  l.flatMap fun p => if p.mSocket = socket then p.bytes else []

/-- A socket has at most one entry. -/
abbrev Distinct (l : List PendingSocket) : Prop := NodupKeys PendingSocket.mSocket l

@[simp] theorem pending_nil (socket : Int) : pending [] socket = [] := rfl

@[simp] theorem pending_cons (p : PendingSocket) (l : List PendingSocket) (socket : Int) :
    pending (p :: l) socket =
      (if p.mSocket = socket then p.bytes else []) ++ pending l socket :=
  List.flatMap_cons

theorem pending_eq_nil {l : List PendingSocket} {socket : Int}
    (h : ∀ p ∈ l, p.mSocket ≠ socket) : pending l socket = [] := by
  apply List.flatMap_eq_nil_iff.mpr
  intro p hp
  exact if_neg (h p hp)

theorem distinct_cons {p : PendingSocket} {l : List PendingSocket} :
    Distinct (p :: l) ↔ (∀ q ∈ l, q.mSocket ≠ p.mSocket) ∧ Distinct l := by
  simp only [Distinct, NodupKeys, List.map_cons, List.nodup_cons, List.mem_map, not_exists,
    not_and]

@[simp] theorem pending_append (l l' : List PendingSocket) (socket : Int) :
    pending (l ++ l') socket = pending l socket ++ pending l' socket :=
  List.flatMap_append

/-- Where a socket has its entry, there is nothing of it before or behind. -/
theorem Distinct.pending_around {a b : List PendingSocket} {p : PendingSocket}
    (h : Distinct (a ++ p :: b)) : pending a p.mSocket = [] ∧ pending b p.mSocket = [] := by
  simp only [Distinct, NodupKeys, List.map_append, List.map_cons] at h
  have hmid := List.nodup_middle.mp h
  rw [List.nodup_cons, ← List.map_append] at hmid
  constructor
  · apply pending_eq_nil
    intro q hq hqp
    exact hmid.1 (List.mem_map.mpr ⟨q, List.mem_append_left _ hq, hqp⟩)
  · apply pending_eq_nil
    intro q hq hqp
    exact hmid.1 (List.mem_map.mpr ⟨q, List.mem_append_right _ hq, hqp⟩)

/-! ### Queueing and sorting -/

section WithSocket

variable {socket : Int} {f : PendingSocket → PendingSocket} {data : List UInt8}

/-- The entry of a socket takes more bytes at its end. -/
theorem pending_withSocket (socket : Int) (hsock : ∀ p, (f p).mSocket = p.mSocket)
    (hbytes : ∀ p, (f p).bytes = p.bytes ++ data) {l : List PendingSocket} (hl : Distinct l)
    (k : Int) :
    pending (withSocket socket f l) k = pending l k ++ if k = socket then data else [] := by
  induction l with
  | nil =>
      rw [withSocket, pending_cons, hsock, hbytes]
      by_cases hk : k = socket
      · simp [hk, PendingSocket.bytes]
      · simp [hk, Ne.symm hk]
  | cons p rest ih =>
      obtain ⟨hp, hrest⟩ := distinct_cons.mp hl
      rw [withSocket]
      split
      · next hps =>
          rw [pending_cons, pending_cons, hsock, hbytes]
          by_cases hk : k = socket
          · have hnone : pending rest socket = [] := pending_eq_nil fun q hq => by
              rw [← hps]
              exact hp q hq
            simp [hnone, hk, hps]
          · have hne : p.mSocket ≠ k := fun h => hk (h.symm.trans hps)
            simp [hne, hk]
      · rw [pending_cons, pending_cons, ih hrest, List.append_assoc]

theorem map_withSocket (hsock : ∀ p, (f p).mSocket = p.mSocket) (l : List PendingSocket) :
    (withSocket socket f l).map PendingSocket.mSocket =
      if socket ∈ l.map PendingSocket.mSocket then l.map PendingSocket.mSocket
      else l.map PendingSocket.mSocket ++ [socket] := by
  induction l with
  | nil => simp [withSocket, hsock]
  | cons p rest ih =>
      rw [withSocket]
      by_cases hps : p.mSocket = socket
      · simp [hps, hsock]
      · rw [if_neg hps, List.map_cons, ih]
        by_cases hmem : socket ∈ rest.map PendingSocket.mSocket
        · simp [hmem]
        · simp [hmem, Ne.symm hps]

theorem Distinct.withSocket (hsock : ∀ p, (f p).mSocket = p.mSocket) {l : List PendingSocket}
    (hl : Distinct l) : Distinct (withSocket socket f l) := by
  unfold Distinct NodupKeys
  rw [map_withSocket hsock]
  split
  · exact hl
  · next hmem => exact List.Nodup.append hl (List.nodup_singleton _) (by simpa using hmem)

end WithSocket

/-- The pieces of a packet are the packet. -/
theorem flatten_pieces {data : Packet} {n : Nat} (hn : 0 < n) (fuel pos : Nat)
    (hfuel : data.length - pos ≤ fuel) :
    (PendingSocket.pieces data n fuel pos).flatten = data.drop pos := by
  induction fuel generalizing pos with
  | zero => exact (List.drop_eq_nil_of_le (by omega)).symm
  | succ fuel ih =>
      rw [PendingSocket.pieces]
      split
      · rw [List.flatten_cons, ih (pos + n) (by omega), ← List.drop_drop,
          List.take_append_drop]
      · exact (List.drop_eq_nil_of_le (by omega)).symm

theorem bytes_addData (cfg : Config) (data : Packet) (p : PendingSocket) :
    (p.addData cfg data).bytes = p.bytes ++ data := by
  have hfresh : (if cfg.ForceMaxPacketSize > 0 then
      PendingSocket.pieces data (if cfg.ForceMaxPacketSize > 0 then cfg.ForceMaxPacketSize.toNat
        else PendingSocket.DATA_ELEMENT_LIMIT) data.length 0 else [data]).flatten = data := by
    split
    · next h => rw [flatten_pieces (by omega) _ _ (Nat.sub_le _ _), List.drop_zero]
    · simp
  unfold PendingSocket.addData PendingSocket.bytes
  dsimp only
  generalize (if cfg.ForceMaxPacketSize > 0 then PendingSocket.pieces data _ data.length 0
    else [data]) = fresh at hfresh ⊢
  generalize (if cfg.ForceMaxPacketSize > 0 then cfg.ForceMaxPacketSize.toNat
    else PendingSocket.DATA_ELEMENT_LIMIT) = limit
  cases hlast : p.mPacketList.getLast? with
  | none =>
      dsimp only
      rw [List.flatten_append, hfresh]
  | some back =>
      obtain ⟨l, hl⟩ := List.getLast?_eq_some_iff.mp hlast
      dsimp only
      split
      · simp [hl]
      · rw [List.flatten_append, hfresh]

theorem mSocket_addData (cfg : Config) (data : Packet) (p : PendingSocket) :
    (p.addData cfg data).mSocket = p.mSocket := by
  unfold PendingSocket.addData
  cases p.mPacketList.getLast? with
  | none => rfl
  | some back =>
      dsimp only
      generalize (if cfg.ForceMaxPacketSize > 0 then cfg.ForceMaxPacketSize.toNat
        else PendingSocket.DATA_ELEMENT_LIMIT) = limit
      split <;> rfl

theorem foldl_addData (cfg : Config) (l : List Packet) (p : PendingSocket) :
    (l.foldl (fun p data => p.addData cfg data) p).bytes = p.bytes ++ l.flatten ∧
      (l.foldl (fun p data => p.addData cfg data) p).mSocket = p.mSocket := by
  induction l generalizing p with
  | nil => simp
  | cons data rest ih =>
      obtain ⟨hbytes, hsock⟩ := ih (p.addData cfg data)
      rw [List.foldl_cons, List.flatten_cons, hbytes, hsock, bytes_addData, mSocket_addData,
        List.append_assoc]
      exact ⟨rfl, rfl⟩

/-- Sorting keeps the order for each socket. -/
theorem pending_foldl_sortEntry (cfg : Config) (entries : List PendingSocket)
    {l : List PendingSocket} (hl : Distinct l) :
    Distinct (entries.foldl (PacketManager.sortEntry cfg) l) ∧
      ∀ k, pending (entries.foldl (PacketManager.sortEntry cfg) l) k =
        pending l k ++ pending entries k := by
  induction entries generalizing l with
  | nil => exact ⟨hl, fun k => by simp⟩
  | cons e rest ih =>
      have hsock (p : PendingSocket) := (foldl_addData cfg e.mPacketList p).2
      have hbytes (p : PendingSocket) := (foldl_addData cfg e.mPacketList p).1
      obtain ⟨hd, hp⟩ := ih (l := PacketManager.sortEntry cfg l e) (hl.withSocket hsock)
      refine ⟨hd, fun k => ?_⟩
      rw [List.foldl_cons, hp k, PacketManager.sortEntry,
        pending_withSocket e.mSocket hsock hbytes hl k, pending_cons, List.append_assoc]
      simp only [PendingSocket.bytes, eq_comm]

/-! ### Sending -/

/-- What went to the kernel is counted, also before an error. -/
theorem attemptSend2_spec (length : Nat) (results : List SendResult) (written : Nat)
    (h : written ≤ length) :
    let a := attemptSend2 length results written
    a.written ≤ length ∧ (a.res = a.written ∨ a.res = -1) := by
  induction results generalizing written with
  | nil => exact ⟨h, .inl rfl⟩
  | cons r rest ih =>
      simp only [attemptSend2]
      split
      · cases r with
        | wouldBlock => exact ⟨h, .inl rfl⟩
        | error => exact ⟨h, .inr rfl⟩
        | wrote n =>
            dsimp only
            split
            · exact ⟨h, .inl rfl⟩
            · exact ih _ (by omega)
      · exact ⟨h, .inl rfl⟩

/-- The loop hands on the front of the data, and keeps the rest unless it fails. -/
theorem sendLoop_spec (packets : List Packet) (results : List SendResult) :
    let r := sendLoop packets results
    r.handed <+: packets.flatten ∧
      (r.res ≠ .SEND_FAILED → r.handed ++ r.mPacketList.flatten = packets.flatten) ∧
      (r.res = .SEND_SUCCESS → r.mPacketList = []) ∧ r.res ≠ .SEND_DATA := by
  induction packets generalizing results with
  | nil => simp [sendLoop]
  | cons packet rest ih =>
      have ha := attemptSend2_spec packet.length results 0 (Nat.zero_le _)
      simp only [sendLoop]
      generalize attemptSend2 packet.length results 0 = a at ha
      obtain ⟨hle, hres⟩ := ha
      split
      · next hfull =>
          obtain ⟨hpre, hkeep, hdone, hdata⟩ := ih a.results
          have hall : packet.take a.written = packet := List.take_of_length_le (by omega)
          rw [List.flatten_cons, hall]
          refine ⟨(List.prefix_append_right_inj _).mpr hpre, fun h => ?_, hdone, hdata⟩
          rw [List.append_assoc, hkeep h]
      · split
        · rw [List.flatten_cons]
          exact ⟨(List.take_prefix _ _).trans (List.prefix_append _ _), by simp, by simp, by simp⟩
        · next hne =>
            have hwritten : a.res = a.written := hres.resolve_right hne
            rw [List.flatten_cons]
            refine ⟨(List.take_prefix _ _).trans (List.prefix_append _ _), fun _ => ?_, by simp,
              by simp⟩
            rw [List.flatten_cons, ← List.append_assoc]
            congr 1
            split
            · rw [hwritten, Int.toNat_natCast, List.take_append_drop]
            · next hzero =>
                have hnone : a.written = 0 := by omega
                rw [hnone, List.take_zero, List.nil_append]

/-- Only an error is returned as one, and the results that are left come from those given. -/
theorem error_mem_of_attempt (length : Nat) (results : List SendResult) (written : Nat) :
    ((attemptSend2 length results written).res = -1 → .error ∈ results) ∧
      (attemptSend2 length results written).results ⊆ results := by
  induction results generalizing written with
  | nil =>
      constructor
      · intro h
        simp only [attemptSend2] at h
        omega
      · exact List.Subset.refl _
  | cons r rest ih =>
      have hrest : rest ⊆ r :: rest := List.subset_cons_self _ _
      have hnat (n : Nat) : (n : Int) = -1 → SendResult.error ∈ r :: rest := by
        intro h
        omega
      simp only [attemptSend2]
      split
      · cases r with
        | wouldBlock => exact ⟨hnat _, hrest⟩
        | error => exact ⟨fun _ => List.mem_cons_self, hrest⟩
        | wrote n =>
            dsimp only
            split
            · exact ⟨hnat _, hrest⟩
            · obtain ⟨herr, hsub⟩ := ih (written + min n (length - written))
              exact ⟨fun h => List.mem_cons_of_mem _ (herr h), fun _ h => hrest (hsub h)⟩
      · exact ⟨hnat _, List.Subset.refl _⟩

/-- Only an error ends the loop so. -/
theorem error_mem_of_failed {packets : List Packet} {results : List SendResult}
    (h : (sendLoop packets results).res = .SEND_FAILED) : .error ∈ results := by
  induction packets generalizing results with
  | nil => cases h
  | cons packet rest ih =>
      obtain ⟨herr, hsub⟩ :=
        error_mem_of_attempt packet.length results 0
      simp only [sendLoop] at h
      split at h
      · exact hsub (ih h)
      · split at h
        · next hneg => exact herr hneg
        · cases h

/-- What sending an entry does, with what stays of it. -/
structure Sends (p : PendingSocket) (results : List SendResult) (l : List PendingSocket)
    (m m' : PacketManager) : Prop where
  queue : m'.mQueueData = m.mQueueData ∧ m'.mTransition = m.mTransition ∧ m'.phase = m.phase
  sockets : (l.map PendingSocket.mSocket).Sublist [p.mSocket]
  others : ∀ k, k ≠ p.mSocket → m'.sent k = m.sent k ∧ m'.disconnected k = m.disconnected k
  front : ∃ handed, m'.sent p.mSocket = m.sent p.mSocket ++ handed ∧
    handed ++ pending l p.mSocket <+: p.bytes
  kept : m'.disconnected p.mSocket = false → m.disconnected p.mSocket = false ∧
    m'.sent p.mSocket ++ pending l p.mSocket = m.sent p.mSocket ++ p.bytes
  failed : m'.disconnected p.mSocket = true → m.disconnected p.mSocket = true ∨ .error ∈ results

namespace PacketManager

variable {m : PacketManager}

theorem countPartial_spec (m : PacketManager) (cfg : Config) (g_ServerTime : Nat)
    (p : PendingSocket) :
    (m.countPartial cfg g_ServerTime p).1.mSocket = p.mSocket ∧
      (m.countPartial cfg g_ServerTime p).1.bytes = p.bytes ∧
      ∃ mDebugData, (m.countPartial cfg g_ServerTime p).2 = { m with mDebugData } := by
  refine ⟨?_, ?_, _, rfl⟩
  · simp only [countPartial]
    split <;> rfl
  · simp only [countPartial]
    split <;> rfl

/-- An entry that was not touched. -/
theorem sends_self (p : PendingSocket) (results : List SendResult) {l : List PendingSocket}
    (hsockets : (l.map PendingSocket.mSocket).Sublist [p.mSocket])
    (hl : pending l p.mSocket = p.bytes) : Sends p results l m m where
  queue := ⟨rfl, rfl, rfl⟩
  sockets := hsockets
  others _ _ := ⟨rfl, rfl⟩
  front := ⟨[], (List.append_nil _).symm, by rw [hl, List.nil_append]⟩
  kept h := ⟨h, by rw [hl]⟩
  failed h := .inl h

/-- An entry whose data was offered to the kernel. -/
theorem sends_loop {p : PendingSocket} {results : List SendResult} {l : List PendingSocket}
    {m' : PacketManager}
    (hqueue : m'.mQueueData = m.mQueueData ∧ m'.mTransition = m.mTransition ∧
      m'.phase = m.phase)
    (hsockets : (l.map PendingSocket.mSocket).Sublist [p.mSocket])
    (hsent : m'.sent = Function.update m.sent p.mSocket
      (m.sent p.mSocket ++ (sendLoop p.mPacketList results).handed))
    (hrest : ((sendLoop p.mPacketList results).res = .SEND_FAILED ∧
        m'.disconnected = Function.update m.disconnected p.mSocket true ∧
        pending l p.mSocket = []) ∨
      ((sendLoop p.mPacketList results).res ≠ .SEND_FAILED ∧
        m'.disconnected = m.disconnected ∧
        pending l p.mSocket = (sendLoop p.mPacketList results).mPacketList.flatten)) :
    Sends p results l m m' := by
  obtain ⟨hfront, hkeep, -, -⟩ := sendLoop_spec p.mPacketList results
  have hhere : m'.sent p.mSocket =
      m.sent p.mSocket ++ (sendLoop p.mPacketList results).handed := by
    rw [hsent, Function.update_self]
  refine ⟨hqueue, hsockets, fun k hk => ⟨?_, ?_⟩, ⟨_, hhere, ?_⟩, fun h => ?_, fun h => ?_⟩
  · rw [hsent, Function.update_of_ne hk]
  · obtain ⟨-, hd, -⟩ | ⟨-, hd, -⟩ := hrest
    · rw [hd, Function.update_of_ne hk]
    · rw [hd]
  · obtain ⟨-, -, hl⟩ | ⟨hres, -, hl⟩ := hrest
    · rw [hl, List.append_nil]
      exact hfront
    · rw [hl, hkeep hres]
      exact List.prefix_rfl
  · obtain ⟨-, hd, -⟩ | ⟨hres, hd, hl⟩ := hrest
    · rw [hd, Function.update_self] at h
      cases h
    · rw [hd] at h
      refine ⟨h, ?_⟩
      rw [hhere, hl, List.append_assoc, hkeep hres]
      rfl
  · obtain ⟨hres, -⟩ | ⟨-, hd, -⟩ := hrest
    · exact .inr (error_mem_of_failed hres)
    · rw [hd] at h
      exact .inl h

/-- The body of the loop of `SendPackets2`. -/
theorem sends_sendEntry (m : PacketManager) (cfg : Config) (g_ServerTime : Nat)
    (results : List SendResult) (p : PendingSocket) :
    Sends p results (m.sendEntry cfg g_ServerTime results p).1 m
      (m.sendEntry cfg g_ServerTime results p).2 := by
  unfold sendEntry sendSocket
  by_cases hempty : p.mPacketList.length = 0
  · have hnone : p.bytes = [] := by
      rw [PendingSocket.bytes, List.length_eq_zero_iff.mp hempty, List.flatten_nil]
    rw [if_pos hempty]
    exact sends_self p results (List.nil_sublist _) hnone.symm
  · by_cases hdelay : g_ServerTime < p.mForcedResumeTime
    · rw [if_neg hempty, if_pos hdelay]
      exact sends_self p results (List.Sublist.refl _) (by simp)
    · rw [if_neg hempty, if_neg hdelay]
      dsimp only
      obtain ⟨-, -, hdone, hdata⟩ := sendLoop_spec p.mPacketList results
      cases hres : (sendLoop p.mPacketList results).res with
      | SEND_FAILED =>
          exact sends_loop ⟨rfl, rfl, rfl⟩ (List.nil_sublist _) rfl (.inl ⟨hres, rfl, rfl⟩)
      | SEND_DELAY =>
          dsimp only
          obtain ⟨hsock, hbytes, d, hm⟩ := countPartial_spec
            { m with
              sent := Function.update m.sent p.mSocket
                (m.sent p.mSocket ++ (sendLoop p.mPacketList results).handed) }
            cfg g_ServerTime
            { p with mPacketList := (sendLoop p.mPacketList results).mPacketList }
          refine sends_loop ?_ ?_ ?_ (.inr ⟨?_, ?_, ?_⟩)
          · rw [hm]
            exact ⟨rfl, rfl, rfl⟩
          · rw [List.map_singleton, hsock]
          · rw [hm]
          · rw [hres]
            decide
          · rw [hm]
          · rw [pending_cons, if_pos hsock, pending_nil, List.append_nil, hbytes]
            rfl
      | SEND_SUCCESS =>
          refine sends_loop ⟨rfl, rfl, rfl⟩ (List.nil_sublist _) rfl (.inr ⟨?_, rfl, ?_⟩)
          · rw [hres]
            decide
          · rw [hdone hres]
            rfl
      | SEND_DATA => exact absurd hres hdata

end PacketManager

/-! ### Runs -/

/-- The bytes that were queued for a socket, in the order of the calls. -/
def offered (evs : List Event) (socket : Int) : List UInt8 :=
  evs.flatMap fun
    | .add k data => if k = socket then data else []
    | _ => []

/-- Some `send` on a socket returned an error that does not ask to wait. -/
def Refused (evs : List Event) (socket : Int) : Prop :=
  ∃ cfg g_ServerTime results, .send cfg g_ServerTime socket results ∈ evs ∧ .error ∈ results

namespace PacketManager

/-- The bytes that are still queued for a socket. -/
def rest (m : PacketManager) (socket : Int) : List UInt8 :=
  pending (m.visited ++ m.mSendData) socket ++ pending m.mTransition socket ++
    pending m.mQueueData socket

/-- What holds between two steps, where `out` was queued so far. -/
structure InOrder (out : Int → List UInt8) (m : PacketManager) : Prop where
  queue : Distinct m.mQueueData
  send : Distinct (m.visited ++ m.mSendData)
  sorted : m.phase ≠ .sort → m.mTransition = []
  fresh : m.phase ≠ .send → m.visited = []
  sub : ∀ k, (m.sent k ++ m.rest k).Sublist (out k)
  exact : ∀ k, m.disconnected k = false → m.sent k ++ m.rest k = out k

variable {m : PacketManager} {out : Int → List UInt8}

theorem InOrder.addOutgoingPacket2 (h : m.InOrder out) (socket : Int) (data : Packet) :
    (m.addOutgoingPacket2 socket data).InOrder
      (fun k => out k ++ if socket = k then data else []) := by
  unfold PacketManager.addOutgoingPacket2
  split
  · next hempty =>
      have hnone : data = [] := List.length_eq_zero_iff.mp hempty
      have hout : (fun k => out k ++ if socket = k then data else []) = out := by
        funext k
        rw [hnone, ite_self, List.append_nil]
      rw [hout]
      exact h
  · have hbytes (p : PendingSocket) :
        PendingSocket.bytes { p with mPacketList := p.mPacketList ++ [data] } =
          p.bytes ++ data := by simp [PendingSocket.bytes]
    have hrest (k : Int) : m.sent k ++ rest { m with
        mQueueData := withSocket socket
          (fun p => { p with mPacketList := p.mPacketList ++ [data] }) m.mQueueData } k =
        m.sent k ++ m.rest k ++ if socket = k then data else [] := by
      have hpend := pending_withSocket socket
        (f := fun p => { p with mPacketList := p.mPacketList ++ [data] })
        (fun _ => rfl) hbytes h.queue k
      simp only [rest, hpend, List.append_assoc, eq_comm]
    refine ⟨?_, h.send, h.sorted, h.fresh, fun k => ?_, fun k hk => ?_⟩
    · apply h.queue.withSocket
      intro p
      rfl
    · rw [hrest k]
      exact (h.sub k).append_right _
    · rw [hrest k, h.exact k hk]

theorem InOrder.takeQueue (h : m.InOrder out) (hphase : m.phase = .take) :
    m.takeQueue.InOrder out := by
  have hsorted : m.mTransition = [] := h.sorted (by rw [hphase]; decide)
  have hfresh : m.visited = [] := h.fresh (by rw [hphase]; decide)
  unfold PacketManager.takeQueue
  split
  · exact ⟨h.queue, h.send, fun _ => hsorted, fun hne => absurd rfl hne, h.sub, h.exact⟩
  · have hrest (k : Int) : rest { m with
        mTransition := m.mQueueData, mQueueData := [], phase := .sort } k = m.rest k := by
      simp only [rest, hsorted, pending_nil, List.append_nil]
    refine ⟨List.nodup_nil, h.send, fun hne => absurd rfl hne, fun _ => hfresh, fun k => ?_,
      fun k hk => ?_⟩
    · rw [hrest k]
      exact h.sub k
    · rw [hrest k]
      exact h.exact k hk

theorem InOrder.sortPackets (h : m.InOrder out) (hphase : m.phase = .sort) (cfg : Config) :
    (m.sortPackets cfg).InOrder out := by
  have hfresh : m.visited = [] := h.fresh (by rw [hphase]; decide)
  have hsend := h.send
  rw [hfresh, List.nil_append] at hsend
  obtain ⟨hdistinct, hpend⟩ := pending_foldl_sortEntry cfg m.mTransition hsend
  have hrest (k : Int) : (m.sortPackets cfg).rest k = m.rest k := by
    simp only [rest, PacketManager.sortPackets, hfresh, List.nil_append, hpend, pending_nil,
      List.append_nil]
  refine ⟨h.queue, ?_, fun _ => rfl, fun hne => absurd rfl hne, fun k => ?_, fun k hk => ?_⟩
  · simpa only [PacketManager.sortPackets, hfresh, List.nil_append] using hdistinct
  · rw [hrest k]
    exact h.sub k
  · rw [hrest k]
    exact h.exact k hk

/-- Before an entry is sent, its bytes come first of what is left for its socket. -/
theorem InOrder.rest_eq (h : m.InOrder out) (hphase : m.phase = .send) {p : PendingSocket}
    {others : List PendingSocket} (hdata : m.mSendData = p :: others) :
    m.rest p.mSocket = p.bytes ++ pending m.mQueueData p.mSocket := by
  have hsorted : m.mTransition = [] := h.sorted (by rw [hphase]; decide)
  have hsend := h.send
  rw [hdata] at hsend
  obtain ⟨hbefore, hbehind⟩ := hsend.pending_around
  simp only [rest, hdata, hsorted, pending_append, pending_cons, hbefore, hbehind, if_true,
    pending_nil, List.nil_append, List.append_nil]

theorem InOrder.sendEntry (h : m.InOrder out) (hphase : m.phase = .send)
    {p : PendingSocket} {others : List PendingSocket} (hdata : m.mSendData = p :: others)
    {results : List SendResult} {l : List PendingSocket} {m' : PacketManager}
    (hs : Sends p results l m m') :
    InOrder out { m' with visited := m.visited ++ l, mSendData := others } := by
  have hsorted : m.mTransition = [] := h.sorted (by rw [hphase]; decide)
  have hsend := h.send
  rw [hdata] at hsend
  obtain ⟨hbefore, hbehind⟩ := hsend.pending_around
  obtain ⟨hqueue, htrans, hphase'⟩ := hs.queue
  have hl (k : Int) (hk : k ≠ p.mSocket) : pending l k = [] := by
    apply pending_eq_nil
    intro q hq hqk
    have hmem := hs.sockets.subset (List.mem_map_of_mem hq)
    rw [hqk] at hmem
    exact hk (List.mem_singleton.mp hmem)
  have hrest : rest { m' with visited := m.visited ++ l, mSendData := others } p.mSocket =
      pending l p.mSocket ++ pending m.mQueueData p.mSocket := by
    simp only [rest, hqueue, htrans, hsorted, pending_append, hbefore, hbehind, pending_nil,
      List.nil_append, List.append_nil]
  have hothers (k : Int) (hk : k ≠ p.mSocket) :
      rest { m' with visited := m.visited ++ l, mSendData := others } k = m.rest k := by
    simp only [rest, hdata, hqueue, htrans, pending_append, pending_cons, hl k hk,
      if_neg (Ne.symm hk), List.nil_append, List.append_nil]
  refine ⟨?_, ?_, fun _ => ?_, fun hne => ?_, fun k => ?_, fun k hk => ?_⟩
  · rw [hqueue]
    exact h.queue
  · refine List.Nodup.sublist ?_ hsend
    have hsub := (hs.sockets.append_left (m.visited.map PendingSocket.mSocket)).append
      (List.Sublist.refl (others.map PendingSocket.mSocket))
    simpa only [List.map_append, List.map_cons, List.append_assoc, List.singleton_append]
      using hsub
  · rw [htrans]
    exact hsorted
  · exact absurd (hphase'.trans hphase) hne
  · by_cases hkp : k = p.mSocket
    · subst hkp
      obtain ⟨handed, hsent, hfront⟩ := hs.front
      have hsub := h.sub p.mSocket
      rw [h.rest_eq hphase hdata] at hsub
      refine List.Sublist.trans ?_ hsub
      rw [hrest, hsent, List.append_assoc, ← List.append_assoc handed]
      exact (hfront.sublist.append_right _).append_left _
    · rw [hothers k hkp, (hs.others k hkp).1]
      exact h.sub k
  · by_cases hkp : k = p.mSocket
    · subst hkp
      obtain ⟨hc, hkept⟩ := hs.kept hk
      rw [← h.exact _ hc, h.rest_eq hphase hdata, hrest, ← List.append_assoc, hkept,
        List.append_assoc]
    · obtain ⟨hsent, hclosed⟩ := hs.others k hkp
      rw [hclosed] at hk
      rw [hothers k hkp, hsent]
      exact h.exact k hk

/-- What one step preserves. -/
theorem InOrder.step {m' : PacketManager} (h : m.InOrder out) {ev : Event}
    (hstep : Packets.step m ev = some m') :
    m'.InOrder (fun k => out k ++ offered [ev] k) := by
  have hquiet (hnone : ∀ k, offered [ev] k = []) (h' : m'.InOrder out) :
      m'.InOrder (fun k => out k ++ offered [ev] k) := by
    simpa only [hnone, List.append_nil] using h'
  cases ev with
  | add socket data =>
      cases hstep
      simpa only [offered, List.flatMap_cons, List.flatMap_nil, List.append_nil] using
        h.addOutgoingPacket2 socket data
  | take =>
      obtain ⟨hphase, hm⟩ := Option.ite_none_right_eq_some.mp hstep
      cases hm
      exact hquiet (fun _ => rfl) (h.takeQueue hphase)
  | sort cfg =>
      obtain ⟨hphase, hm⟩ := Option.ite_none_right_eq_some.mp hstep
      cases hm
      exact hquiet (fun _ => rfl) (h.sortPackets hphase cfg)
  | send cfg g_ServerTime socket results =>
      simp only [Packets.step] at hstep
      split at hstep
      · next p others hphase hdata =>
          obtain ⟨-, hm⟩ := Option.ite_none_right_eq_some.mp hstep
          cases hm
          exact hquiet (fun _ => rfl)
            (h.sendEntry hphase hdata (sends_sendEntry m cfg g_ServerTime results p))
      · cases hstep
  | done =>
      simp only [Packets.step] at hstep
      split at hstep
      · next hphase hdata =>
          cases hstep
          have hsend := h.send
          rw [hdata, List.append_nil] at hsend
          have hrest (k : Int) : rest { m with
              mSendData := m.visited, visited := [], phase := .take } k = m.rest k := by
            simp only [rest, hdata, List.nil_append, List.append_nil]
          refine hquiet (fun _ => rfl) ⟨h.queue, hsend, fun _ => h.sorted (by rw [hphase]; decide),
            fun _ => rfl, fun k => ?_, fun k hk => ?_⟩
          · rw [hrest k]
            exact h.sub k
          · rw [hrest k]
            exact h.exact k hk
      · cases hstep

theorem inOrder_empty : InOrder (fun _ => []) {} where
  queue := List.nodup_nil
  send := List.nodup_nil
  sorted _ := rfl
  fresh _ := rfl
  sub _ := List.Sublist.refl _
  exact _ _ := rfl

/-- What a run preserves. -/
theorem InOrder.runAll {evs : List Event} {m' : PacketManager} (h : m.InOrder out)
    (hrun : Lib.runAll Packets.step m evs = some m') :
    m'.InOrder (fun k => out k ++ offered evs k) := by
  induction evs generalizing m out with
  | nil =>
      cases hrun
      simpa only [offered, List.flatMap_nil, List.append_nil] using h
  | cons ev evs ih =>
      obtain ⟨m₁, hstep, hrun⟩ := Option.bind_eq_some_iff.mp hrun
      have hnext := ih (h.step hstep) hrun
      simpa only [offered, List.flatMap_cons, List.flatMap_nil, List.append_nil,
        List.append_assoc] using hnext

/-- A step hands nothing over and closes nothing, or it sends the next entry. -/
theorem step_cases {m' : PacketManager} {ev : Event} (hstep : Packets.step m ev = some m') :
    (m'.sent = m.sent ∧ m'.disconnected = m.disconnected) ∨
      ∃ cfg g_ServerTime results p others, ev = .send cfg g_ServerTime p.mSocket results ∧
        m.phase = .send ∧ m.mSendData = p :: others ∧
        m'.sent = (m.sendEntry cfg g_ServerTime results p).2.sent ∧
        m'.disconnected = (m.sendEntry cfg g_ServerTime results p).2.disconnected := by
  cases ev with
  | add socket data =>
      cases hstep
      rw [addOutgoingPacket2]
      split <;> exact .inl ⟨rfl, rfl⟩
  | take =>
      obtain ⟨-, hm⟩ := Option.ite_none_right_eq_some.mp hstep
      cases hm
      rw [PacketManager.takeQueue]
      split <;> exact .inl ⟨rfl, rfl⟩
  | sort cfg =>
      obtain ⟨-, hm⟩ := Option.ite_none_right_eq_some.mp hstep
      cases hm
      exact .inl ⟨rfl, rfl⟩
  | send cfg g_ServerTime socket results =>
      simp only [Packets.step] at hstep
      split at hstep
      · next p others hphase hdata =>
          obtain ⟨rfl, hm⟩ := Option.ite_none_right_eq_some.mp hstep
          cases hm
          exact .inr ⟨cfg, g_ServerTime, results, p, others, rfl, hphase, hdata, rfl, rfl⟩
      · cases hstep
  | done =>
      simp only [Packets.step] at hstep
      split at hstep
      · cases hstep
        exact .inl ⟨rfl, rfl⟩
      · cases hstep

/-- A step closes a socket only after an error of `send` on it. -/
theorem disconnected_step {m' : PacketManager} {ev : Event} {k : Int}
    (hstep : Packets.step m ev = some m') (hk : m'.disconnected k = true) :
    m.disconnected k = true ∨ Refused [ev] k := by
  obtain ⟨-, hsame⟩ | ⟨cfg, g_ServerTime, results, p, others, rfl, -, -, -, hclosed⟩ :=
    step_cases hstep
  · exact .inl (hsame ▸ hk)
  · have hs := sends_sendEntry m cfg g_ServerTime results p
    rw [hclosed] at hk
    by_cases hkp : k = p.mSocket
    · subst hkp
      obtain hbefore | herr := hs.failed hk
      · exact .inl hbefore
      · exact .inr ⟨cfg, g_ServerTime, results, List.mem_singleton_self _, herr⟩
    · exact .inl ((hs.others k hkp).2 ▸ hk)

theorem disconnected_runAll {evs : List Event} {m' : PacketManager} {k : Int}
    (hrun : Lib.runAll Packets.step m evs = some m') (hk : m'.disconnected k = true) :
    m.disconnected k = true ∨ Refused evs k := by
  induction evs generalizing m with
  | nil =>
      cases hrun
      exact .inl hk
  | cons ev evs ih =>
      obtain ⟨m₁, hstep, hrun⟩ := Option.bind_eq_some_iff.mp hrun
      have hmono {evs' : List Event} (hsub : evs' ⊆ ev :: evs) (h : Refused evs' k) :
          Refused (ev :: evs) k := by
        obtain ⟨cfg, t, results, hmem, herr⟩ := h
        exact ⟨cfg, t, results, hsub hmem, herr⟩
      obtain hclosed | hlater := ih hrun
      · obtain hbefore | hnow := disconnected_step hstep hclosed
        · exact .inl hbefore
        · exact .inr (hmono (fun _ h => List.mem_singleton.mp h ▸ List.mem_cons_self) hnow)
      · exact .inr (hmono (List.subset_cons_self _ _) hlater)

/-- As long as `send` did not fail on a socket, also by the step at which it does, the kernel
has the front of what was queued for it. -/
theorem InOrder.front_step (h : m.InOrder out) {m' : PacketManager} {ev : Event} {k : Int}
    (hstep : Packets.step m ev = some m') (hk : m.disconnected k = false) :
    m'.sent k <+: out k := by
  have hfront : m.sent k <+: out k := ⟨_, h.exact k hk⟩
  obtain ⟨hsame, -⟩ | ⟨cfg, g_ServerTime, results, p, others, rfl, hphase, hdata, hgiven, -⟩ :=
    step_cases hstep
  · rw [hsame]
    exact hfront
  · have hs := sends_sendEntry m cfg g_ServerTime results p
    rw [hgiven]
    by_cases hkp : k = p.mSocket
    · subst hkp
      obtain ⟨handed, hsent, hpre⟩ := hs.front
      rw [hsent, ← h.exact _ hk, h.rest_eq hphase hdata, List.prefix_append_right_inj]
      exact ((List.prefix_append _ _).trans hpre).trans (List.prefix_append _ _)
    · rw [(hs.others k hkp).1]
      exact hfront

/-- A failed `send` drops what was to be sent, and what is queued for the closed socket later
is sent all the same. -/
theorem sent_not_front :
    ¬ ∀ (evs : List Event) (m : PacketManager), Lib.runAll Packets.step {} evs = some m →
      ∀ k, m.sent k <+: offered evs k := by
  intro h
  let evs : List Event := [.add 4 [1], .take, .sort {}, .send {} 0 4 [.error], .done,
    .add 4 [2], .take, .sort {}, .send {} 0 4 [.wrote 1]]
  have hrun : (Lib.runAll Packets.step {} evs).isSome = true := by decide
  have hsent : ((Lib.runAll Packets.step {} evs).getD {}).sent 4 = [2] := by decide
  have hpre := h evs _ (eq_some_getD hrun {}) 4
  rw [hsent] at hpre
  revert hpre
  decide

/-- At every moment of every run, what the kernel was given for a socket and what is still in
the lists for it was queued for it in this order. Before a `send` failed on it nothing is
missing there, and the kernel has the front of it until then. Only where `send` failed bytes
may be gone, and then the socket was closed. -/
theorem sent_in_order (evs : List Event) (m : PacketManager)
    (hrun : Lib.runAll Packets.step {} evs = some m) (k : Int) :
    (m.sent k ++ (pending (m.visited ++ m.mSendData) k ++ pending m.mTransition k ++
        pending m.mQueueData k)).Sublist (offered evs k) ∧
      (m.disconnected k = false →
        m.sent k ++ (pending (m.visited ++ m.mSendData) k ++ pending m.mTransition k ++
          pending m.mQueueData k) = offered evs k ∧
        ∀ ev m', Packets.step m ev = some m' → m'.sent k <+: offered evs k) ∧
      (m.phase = .take → m.visited = [] ∧ m.mTransition = []) ∧
      (m.disconnected k = true → Refused evs k) := by
  have h : m.InOrder (fun k => [] ++ offered evs k) := inOrder_empty.runAll hrun
  refine ⟨h.sub k, fun hk => ⟨h.exact k hk, fun ev m' hstep => h.front_step hstep hk⟩,
    fun hphase => ?_, fun hk => ?_⟩
  · rw [h.fresh (by rw [hphase]; decide), h.sorted (by rw [hphase]; decide)]
    exact ⟨rfl, rfl⟩
  · obtain hclosed | hrefused := disconnected_runAll hrun hk
    · cases hclosed
    · exact hrefused

/-- Two packets are merged behind pieces, the first piece is sent in parts, the socket asks
for a delay, and a packet is queued meanwhile. -/
theorem sent_in_order_of_partial :
    ∃ m : PacketManager, m.sent 4 = [1, 2, 3] ∧ m.disconnected 4 = false ∧
      m.sent 4 ++ (pending (m.visited ++ m.mSendData) 4 ++ pending m.mTransition 4 ++
        pending m.mQueueData 4) = [1, 2, 3, 4, 5, 6, 7] := by
  let cfg : Config := { ForceMaxPacketSize := 2, DebugPacketSendTrigger := 1 }
  let evs : List Event := [.add 4 [1, 2, 3], .add 4 [4], .add 5 [9], .take, .add 4 [5, 6],
    .sort cfg, .send cfg 10 4 [.wrote 1, .wrote 1, .wrote 1, .wouldBlock], .add 4 [7],
    .send cfg 10 5 [.error], .done]
  have hrun : (Lib.runAll Packets.step {} evs).isSome = true := by decide
  have hsent : ((Lib.runAll Packets.step {} evs).getD {}).sent 4 = [1, 2, 3] := by
    decide
  have hopen : ((Lib.runAll Packets.step {} evs).getD {}).disconnected 4 = false := by
    decide
  have h := sent_in_order evs _ (eq_some_getD hrun {}) 4
  exact ⟨_, hsent, hopen, (h.2.1 hopen).1⟩

end PacketManager

end Iceee.Packets
