/-
# Who frees a latency packet

`send_pkt_all_ports` (`latency.cpp`) makes an mbuf for every latency packet and gives it to the `tx`
of the port. A hardware port sends it (`CLatencyHWPort::tx`, `main_dpdk.cpp`); in the mode with one
queue a port puts it in a message to the core that owns the queue (`CLatencyVmPort::tx`), which
sends it (`handel_latecy_pkt_msg`, `bp_sim.cpp`) and gives the message node back.  The caller counts
what `tx` returns and frees nothing.

`tx_burst` copies the packet and leaves the mbuf to its caller, as `send_burst` knows, which frees
every mbuf. `CLatencyHWPort::tx` frees it only when the driver has taken nothing, and
`CLatencyVmPort::tx` frees nothing when it has no node or the ring no room.  `ownedRun_iff` says
that these are the only packets that are lost: in a run every mbuf and every node is kept once or
was given back once, exactly when no packet is taken by a hardware port and all messages find a node
and room.

* mbufs and nodes are numbered; the rings are one list of messages, each with the number of its
  core;
* what a core sends itself has no number; `send_burst` calls the driver until it has taken all
  packets;
* `freed` and `returned` are histories, which nothing reads.
-/
import Trex.Lat.Address

namespace Trex.Lat

open List
open Function (update update_of_ne update_self)

/-! ## 1. Ports and cores -/

/-- `CGenNodeLatencyPktInfo`, in the ring of a core. -/
structure LatencyMsg where
  node : Nat
  thread : Nat
  dir : Nat
  pkt : Nat
deriving DecidableEq, Repr

/-- What a `tx` meets: the result of `tx_burst`, whether there is a node, and whether the ring has
room. -/
structure TxAnswer where
  taken : UInt16
  node : Bool
  room : Bool
deriving DecidableEq, Repr

/-- The manager, the rings and the tables of the cores. -/
structure LatencyIo where
  mgr : CLatencyManager
  /-- `get_vm_one_queue_enable` -/
  vmOneQueue : Bool
  rings : List LatencyMsg := []
  /-- `m_table` of a core and a side. -/
  table : Nat → Nat → List (Option Nat) := fun _ _ => []
  generated : Nat := 0
  allocated : Nat := 0
  freed : List Nat := []
  returned : List Nat := []

namespace LatencyIo

/-- `rte_pktmbuf_free` -/
def free (m : Nat) (s : LatencyIo) : LatencyIo := { s with freed := s.freed ++ [m] }

/-- `CLatencyHWPort::tx` -/
def hwTx (a : TxAnswer) (m : Nat) (s : LatencyIo) : LatencyIo × Int :=
  if a.taken = 0 then (s.free m, -1) else (s, 0)

/-- `CLatencyVmPort::tx` -/
def vmTx (i : Nat) (a : TxAnswer) (m : Nat) (s : LatencyIo) : LatencyIo × Int :=
  if a.node then
    let node := s.allocated
    let s := { s with allocated := s.allocated + 1 }
    if a.room then ({ s with rings := s.rings ++ [⟨node, i / 2, i % 2, m⟩] }, 0) else (s, -1)
  else (s, -1)

/-- `m_io->tx` -/
def tx (i : Nat) (a : TxAnswer) (m : Nat) (s : LatencyIo) : LatencyIo × Int :=
  if s.vmOneQueue then s.vmTx i a m else s.hwTx a m

/-- The body of the loop of `send_pkt_all_ports`: an mbuf is made when the port sends. -/
def sendPort (o : LatencyOptions) (i : Nat) (a : TxAnswer) (now : UInt64) (s : LatencyIo) :
    LatencyIo :=
  let (sent, result) := { s with generated := s.generated + 1 }.tx i a s.generated
  let (mgr, pkt) := s.mgr.sendPkt o (result == 0) now i
  if pkt.isSome then { sent with mgr } else { s with mgr }

/-- `send_pkt_all_ports` -/
def sendPktAllPorts (o : LatencyOptions) (a : Nat → TxAnswer) (now : Nat → UInt64) (s : LatencyIo) :
    LatencyIo :=
  (List.range s.mgr.maxPorts).foldl (fun s i => s.sendPort o i (a i) (now i)) s

/-- Write a table. -/
def setTable (t d : Nat) (pkts : List (Option Nat)) (s : LatencyIo) : LatencyIo :=
  { s with table := update s.table t (update (s.table t) d pkts) }

/-- `send_burst` of the table of a core: every mbuf is freed, and `m_len` is set to zero behind
it. -/
def sendBurst (t d : Nat) (s : LatencyIo) : LatencyIo :=
  { s.setTable t d [] with freed := s.freed ++ (s.table t d).filterMap id }

/-- `MAX_PKT_BURST` -/
def maxPktBurst : Nat := 32

/-- `send_pkt` -/
def sendPkt (t d : Nat) (m : Option Nat) (s : LatencyIo) : LatencyIo :=
  let s := s.setTable t d (s.table t d ++ [m])
  if (s.table t d).length = maxPktBurst then s.sendBurst t d else s

/-- `send_one_pkt` -/
def sendOnePkt (t d m : Nat) (s : LatencyIo) : LatencyIo := (s.sendPkt t d (some m)).sendBurst t d

/-- One turn of `check_msgs` of a core: `handel_latecy_pkt_msg`, and the node is given back. -/
def checkMsg (t : Nat) (s : LatencyIo) : LatencyIo :=
  match s.rings.find? (·.thread == t) with
  | none => s
  | some msg =>
    let s := { s with rings := s.rings.erase msg }.sendOnePkt t msg.dir msg.pkt
    { s with returned := s.returned ++ [msg.node] }

end LatencyIo

/-- What happens: a port has its turn in `send_pkt_all_ports`, a packet arrives, the manager is
reset or gets a mask or addresses, a core handles a message, sends a packet of its own or its
table. -/
inductive IoEvent
  | send (i : Nat) (a : TxAnswer) (now : UInt64)
  | receive (i : Nat) (m : RxPacket)
  | reset
  | setMask (mask : UInt32)
  | setIp (clientIp serverIp dualPortMask : UInt32)
  | checkMsg (t : Nat)
  | corePkt (t d : Nat)
  | flush (t d : Nat)

namespace LatencyIo

/-- One event. -/
def step (o : LatencyOptions) (s : LatencyIo) : IoEvent → LatencyIo
  | .send i a now => s.sendPort o i a now
  | .receive i m => { s with mgr := s.mgr.handleRxPkt o i m }
  | .reset => { s with mgr := s.mgr.reset }
  | .setMask mask => { s with mgr := s.mgr.setMask mask }
  | .setIp clientIp serverIp dualPortMask =>
      { s with mgr := s.mgr.setIp clientIp serverIp dualPortMask }
  | .checkMsg t => s.checkMsg t
  | .corePkt t d => s.sendPkt t d none
  | .flush t d => s.sendBurst t d

/-- A round is a run of its turns. -/
theorem sendPktAllPorts_eq (o : LatencyOptions) (a : Nat → TxAnswer) (now : Nat → UInt64)
    (s : LatencyIo) :
    s.sendPktAllPorts o a now =
      ((List.range s.mgr.maxPorts).map fun i => IoEvent.send i (a i) (now i)).foldl (step o) s := by
  rw [foldl_map]
  rfl

/-! ## 2. What is to hold -/

/-- **Every mbuf is on its way to a core or was freed, once**, and every node is in a ring or was
returned, once. -/
structure Owned (s : LatencyIo) : Prop where
  mbufs : (s.rings.map (·.pkt) ++ s.freed).Perm (List.range s.generated)
  nodes : (s.rings.map (·.node) ++ s.returned).Perm (List.range s.allocated)

/-- Port `i` sends in its turn. -/
def Sends (o : LatencyOptions) (s : LatencyIo) (i : Nat) : Prop :=
  s.mgr.portMask &&& (1 <<< UInt32.ofNat i) ≠ 0 ∧ (s.mgr.ports i).canSendPacket o (i % 2) = true

/-- **The turns in which nothing is lost**: a hardware port whose driver takes nothing, or a message
that finds a node and room. -/
def Fine (o : LatencyOptions) (s : LatencyIo) : IoEvent → Prop
  | .send i a _ => s.Sends o i → if s.vmOneQueue then a.node = true ∧ a.room = true else a.taken = 0
  | _ => True

/-- Everything is owned, now and after every event. -/
def OwnedRun (o : LatencyOptions) (s : LatencyIo) : List IoEvent → Prop
  | [] => s.Owned
  | e :: events => s.Owned ∧ (s.step o e).OwnedRun o events

/-- Every event loses nothing. -/
def FineRun (o : LatencyOptions) (s : LatencyIo) : List IoEvent → Prop
  | [] => True
  | e :: events => s.Fine o e ∧ (s.step o e).FineRun o events

/-- No latency packet waits in a table: `send_one_pkt` sends the table at once. -/
def TablesClear (s : LatencyIo) : Prop := ∀ t d, ∀ m ∈ s.table t d, m = none

variable {o : LatencyOptions} {s : LatencyIo} {i t d m : Nat} {a : TxAnswer} {now : UInt64}

/-! ## 3. The cores -/

@[simp] theorem setTable_self (pkts : List (Option Nat)) (s : LatencyIo) :
    (s.setTable t d pkts).table t d = pkts := by
  show update s.table t (update (s.table t) d pkts) t d = pkts
  rw [update_self, update_self]

theorem TablesClear.setTable (h : s.TablesClear) {pkts : List (Option Nat)}
    (hpkts : ∀ m ∈ pkts, m = none) :
    (s.setTable t d pkts).TablesClear := by
  intro t' d' m hm
  replace hm : m ∈ update s.table t (update (s.table t) d pkts) t' d' := hm
  by_cases ht : t' = t
  · subst ht
    rw [update_self] at hm
    by_cases hd : d' = d
    · subst hd
      rw [update_self] at hm
      exact hpkts m hm
    · rw [update_of_ne hd] at hm
      exact h t' d' m hm
  · rw [update_of_ne ht] at hm
    exact h t' d' m hm

theorem filterMap_clear (h : s.TablesClear) (t d : Nat) : (s.table t d).filterMap id = [] := by
  rw [filterMap_eq_nil_iff]
  exact h t d

/-- `send_burst` of a table without latency packets frees none. -/
theorem sendBurst_clear (h : s.TablesClear) (t d : Nat) :
    (s.sendBurst t d).TablesClear ∧ (s.sendBurst t d).freed = s.freed := by
  constructor
  · exact h.setTable fun m hm => absurd hm not_mem_nil
  · show s.freed ++ (s.table t d).filterMap id = s.freed
    rw [filterMap_clear h, append_nil]

/-- A core sends a packet of its own. -/
theorem sendPkt_clear (h : s.TablesClear) (t d : Nat) :
    (s.sendPkt t d none).TablesClear ∧ (s.sendPkt t d none).freed = s.freed := by
  have hput : (s.setTable t d (s.table t d ++ [none])).TablesClear := by
    refine h.setTable ?_
    intro m hm
    rcases mem_append.mp hm with hm | hm
    · exact h t d m hm
    · exact mem_singleton.mp hm
  unfold sendPkt
  dsimp only
  split
  · exact sendBurst_clear hput t d
  · exact ⟨hput, rfl⟩

/-- A table and the freed packets are all that a core changes when it sends. -/
theorem sendPkt_rest (t d : Nat) (m : Option Nat) (s : LatencyIo) :
    ∃ freed table, s.sendPkt t d m = { s with freed, table } := by
  unfold sendPkt
  dsimp only
  split
  · exact ⟨_, _, rfl⟩
  · exact ⟨_, _, rfl⟩

/-- The table that `send_burst` leaves empty is the only one that may hold a latency packet. -/
theorem TablesClear.sendBurst_put (h : s.TablesClear) (m : Option Nat) :
    ((s.setTable t d (s.table t d ++ [m])).sendBurst t d).TablesClear := by
  intro t' d' m' hm'
  replace hm' : m' ∈ update (update s.table t (update (s.table t) d (s.table t d ++ [m]))) t
    (update (update s.table t (update (s.table t) d (s.table t d ++ [m])) t) d []) t' d' := hm'
  by_cases ht : t' = t
  · subst ht
    rw [update_self, update_self] at hm'
    by_cases hd : d' = d
    · subst hd
      rw [update_self] at hm'
      cases hm'
    · rw [update_of_ne hd, update_of_ne hd] at hm'
      exact h t' d' m' hm'
  · rw [update_of_ne ht, update_of_ne ht] at hm'
    exact h t' d' m' hm'

/-- **`send_one_pkt` frees the latency packet**, whether the table was full with it or not. -/
theorem sendOnePkt_spec (h : s.TablesClear) (t d m : Nat) :
    (s.sendOnePkt t d m).TablesClear ∧ (s.sendOnePkt t d m).freed = s.freed ++ [m] ∧
      ∃ freed table, s.sendOnePkt t d m = { s with freed, table } := by
  have hfilter : (s.table t d ++ [some m]).filterMap id = [m] := by
    rw [filterMap_append, filterMap_clear h]
    rfl
  have hburst : ((s.setTable t d (s.table t d ++ [some m])).sendBurst t d).freed = s.freed ++
      [m] := by
    show s.freed ++ ((s.setTable t d (s.table t d ++ [some m])).table t d).filterMap id = s.freed ++
      [m]
    rw [setTable_self, hfilter]
  have hclear := h.sendBurst_put (t := t) (d := d) (some m)
  unfold sendOnePkt sendPkt
  dsimp only
  split
  · obtain ⟨hagain, hfreed⟩ := sendBurst_clear hclear t d
    exact ⟨hagain, hfreed.trans hburst, _, _, rfl⟩
  · exact ⟨hclear, hburst, _, _, rfl⟩

/-- **A core handles a message**: its mbuf is freed and its node returned. -/
theorem checkMsg_owned (hclear : s.TablesClear) (h : s.Owned) (t : Nat) :
    (s.checkMsg t).TablesClear ∧ (s.checkMsg t).Owned := by
  unfold checkMsg
  split
  · exact ⟨hclear, h⟩
  rename_i msg hfind
  have hmem : msg ∈ s.rings := mem_of_find?_eq_some hfind
  have hclear' : ({ s with rings := s.rings.erase msg } : LatencyIo).TablesClear := hclear
  obtain ⟨hsent, hfreed, freed, table, heq⟩ := sendOnePkt_spec hclear' t msg.dir msg.pkt
  rw [heq] at hsent hfreed
  dsimp only at hfreed ⊢
  rw [heq]
  refine ⟨hsent, ?_, ?_⟩
  · have hpkts : (s.rings.map (·.pkt)).Perm (msg.pkt :: (s.rings.erase msg).map (·.pkt)) :=
      (perm_cons_erase hmem).map (·.pkt)
    show ((s.rings.erase msg).map (·.pkt) ++ freed).Perm (List.range s.generated)
    rw [hfreed, ← append_assoc]
    calc ((s.rings.erase msg).map (·.pkt) ++ s.freed) ++ [msg.pkt]
        |>.Perm (msg.pkt :: ((s.rings.erase msg).map (·.pkt) ++ s.freed)) :=
          perm_append_singleton _ _
      _ |>.Perm (s.rings.map (·.pkt) ++ s.freed) := (hpkts.symm.append_right s.freed)
      _ |>.Perm (List.range s.generated) := h.mbufs
  · have hnodes : (s.rings.map (·.node)).Perm (msg.node :: (s.rings.erase msg).map (·.node)) :=
      (perm_cons_erase hmem).map (·.node)
    show ((s.rings.erase msg).map (·.node) ++ (s.returned ++ [msg.node])).Perm
      (List.range s.allocated)
    rw [← append_assoc]
    exact (perm_append_singleton _ _).trans ((hnodes.symm.append_right s.returned).trans h.nodes)

/-! ## 4. The turn of a port -/

/-- The manager makes a packet when the port sends. -/
theorem sendPkt_isSome (io : Bool) : (s.mgr.sendPkt o io now i).2.isSome = true ↔ s.Sends o i := by
  unfold CLatencyManager.sendPkt Sends
  dsimp only
  split
  · rename_i hsends
    exact iff_of_true rfl hsends
  · rename_i hno
    exact iff_of_false Bool.false_ne_true hno

theorem tx_table (i : Nat) (a : TxAnswer) (m : Nat) (s : LatencyIo) :
    (s.tx i a m).1.table = s.table := by
  unfold tx
  split
  · unfold vmTx
    dsimp only
    split
    · split <;> rfl
    · rfl
  · unfold hwTx free
    split <;> rfl

theorem sendPort_table (o : LatencyOptions) (i : Nat) (a : TxAnswer) (now : UInt64)
    (s : LatencyIo) :
    (s.sendPort o i a now).table = s.table := by
  unfold sendPort
  dsimp only
  split
  · exact tx_table i a s.generated _
  · rfl

/-- A list that has one element less than another is no permutation of it. -/
theorem not_perm_range {l : List Nat} {n : Nat} (h : l.Perm (List.range n)) :
    ¬ l.Perm (List.range (n + 1)) := by
  intro h'
  have hlen := h.length_eq.symm.trans h'.length_eq
  rw [length_range, length_range] at hlen
  omega

theorem perm_range_succ {l : List Nat} {n : Nat} (h : l.Perm (List.range n)) :
    (l ++ [n]).Perm (List.range (n + 1)) := by
  rw [range_succ]
  exact h.append_right [n]

/-- The next number is put between two lists. -/
theorem perm_insert {l l' : List Nat} {n : Nat} (h : (l ++ l').Perm (List.range n)) :
    ((l ++ [n]) ++ l').Perm (List.range (n + 1)) := by
  refine List.Perm.trans ?_ (perm_range_succ h)
  rw [append_assoc, append_assoc]
  exact perm_append_comm.append_left l

/-- **The turn of a port loses nothing** exactly when it is fine. -/
theorem sendPort_owned_iff (h : s.Owned) :
    (s.sendPort o i a now).Owned ↔ s.Fine o (.send i a now) := by
  by_cases hsends : s.Sends o i
  · have hfine : s.Fine o (.send i a now) ↔
        if s.vmOneQueue then a.node = true ∧ a.room = true else a.taken = 0 :=
      ⟨fun hf => hf hsends, fun hf _ => hf⟩
    rw [hfine]
    unfold sendPort
    dsimp only
    rw [if_pos ((sendPkt_isSome _).mpr hsends)]
    unfold tx
    dsimp only
    cases hvm : s.vmOneQueue with
    | true =>
      rw [if_pos rfl, if_pos rfl]
      unfold vmTx
      dsimp only
      cases hnode : a.node with
      | true =>
        rw [if_pos rfl]
        cases hroom : a.room with
        | true =>
          rw [if_pos rfl]
          refine iff_of_true ⟨?_, ?_⟩ ⟨rfl, rfl⟩
          · rw [map_append]
            exact perm_insert h.mbufs
          · rw [map_append]
            exact perm_insert h.nodes
        | false =>
          rw [if_neg Bool.false_ne_true]
          refine iff_of_false ?_ (fun hf => absurd hf.2 Bool.false_ne_true)
          intro hown
          exact not_perm_range h.mbufs hown.mbufs
      | false =>
        rw [if_neg Bool.false_ne_true]
        refine iff_of_false ?_ (fun hf => absurd hf.1 Bool.false_ne_true)
        intro hown
        exact not_perm_range h.mbufs hown.mbufs
    | false =>
      rw [if_neg Bool.false_ne_true, if_neg Bool.false_ne_true]
      unfold hwTx
      by_cases htaken : a.taken = 0
      · rw [if_pos htaken]
        refine iff_of_true ⟨?_, h.nodes⟩ htaken
        show (s.rings.map (·.pkt) ++ (s.freed ++ [s.generated])).Perm (List.range (s.generated + 1))
        rw [← append_assoc]
        exact perm_range_succ h.mbufs
      · rw [if_neg htaken]
        refine iff_of_false ?_ htaken
        intro hown
        exact not_perm_range h.mbufs hown.mbufs
  · refine iff_of_true ?_ (fun hs => absurd hs hsends)
    unfold sendPort
    dsimp only
    rw [if_neg (fun hsome => hsends ((sendPkt_isSome _).mp hsome))]
    exact ⟨h.mbufs, h.nodes⟩

/-! ## 5. Runs -/

/-- **One event**: latency packets do not wait in a table, and nothing is lost exactly when the
event is fine. -/
theorem step_owned_iff (hclear : s.TablesClear) (h : s.Owned) (e : IoEvent) :
    (s.step o e).TablesClear ∧ ((s.step o e).Owned ↔ s.Fine o e) := by
  cases e with
  | send i a now =>
    refine ⟨?_, sendPort_owned_iff h⟩
    intro t d m hm
    rw [show s.step o (.send i a now) = s.sendPort o i a now from rfl, sendPort_table] at hm
    exact hclear t d m hm
  | receive i m => exact ⟨hclear, iff_of_true ⟨h.mbufs, h.nodes⟩ trivial⟩
  | reset => exact ⟨hclear, iff_of_true ⟨h.mbufs, h.nodes⟩ trivial⟩
  | setMask mask => exact ⟨hclear, iff_of_true ⟨h.mbufs, h.nodes⟩ trivial⟩
  | setIp clientIp serverIp dualPortMask => exact ⟨hclear, iff_of_true ⟨h.mbufs, h.nodes⟩ trivial⟩
  | checkMsg t =>
    obtain ⟨hclear', hown⟩ := checkMsg_owned hclear h t
    exact ⟨hclear', iff_of_true hown trivial⟩
  | corePkt t d =>
    obtain ⟨hclear', hfreed⟩ := sendPkt_clear hclear t d
    obtain ⟨freed, table, heq⟩ := sendPkt_rest t d none s
    refine ⟨hclear', iff_of_true ?_ trivial⟩
    rw [heq] at hfreed
    rw [show s.step o (.corePkt t d) = s.sendPkt t d none from rfl, heq]
    refine ⟨?_, h.nodes⟩
    rw [hfreed]
    exact h.mbufs
  | flush t d =>
    obtain ⟨hclear', hfreed⟩ := sendBurst_clear hclear t d
    refine ⟨hclear', iff_of_true ⟨?_, h.nodes⟩ trivial⟩
    rw [show s.step o (.flush t d) = s.sendBurst t d from rfl, hfreed]
    exact h.mbufs

theorem OwnedRun.owned {events : List IoEvent} (h : s.OwnedRun o events) : s.Owned := by
  cases events with
  | nil => exact h
  | cons e events => exact h.1

theorem ownedRun_iff_of_owned (hclear : s.TablesClear) (h : s.Owned) (events : List IoEvent) :
    s.OwnedRun o events ↔ s.FineRun o events := by
  induction events generalizing s with
  | nil => exact iff_of_true h trivial
  | cons e events ih =>
    obtain ⟨hclear', hiff⟩ := step_owned_iff hclear h (o := o) e
    constructor
    · rintro ⟨-, hrun⟩
      exact ⟨hiff.mp hrun.owned, (ih hclear' hrun.owned).mp hrun⟩
    · rintro ⟨hfine, hrun⟩
      exact ⟨h, (ih hclear' (hiff.mpr hfine)).mpr hrun⟩

/-- The manager is made and nothing is sent. -/
def start (mgr : CLatencyManager) (vmOneQueue : Bool) : LatencyIo := { mgr, vmOneQueue }

/-- **Every latency mbuf and every message node is kept or given back once**, in all the states of a
run, if and only if no latency packet is taken by the driver of a hardware port, and every one that
a port with one queue sends finds a message node and room in the ring. -/
theorem ownedRun_iff (mgr : CLatencyManager) (vmOneQueue : Bool) (events : List IoEvent) :
    (start mgr vmOneQueue).OwnedRun o events ↔ (start mgr vmOneQueue).FineRun o events :=
  ownedRun_iff_of_owned (fun _ _ _ hm => absurd hm not_mem_nil) ⟨.refl _, .refl _⟩ events

/-- **A packet that is sent**: the driver takes the packet of port 0, and the mbuf is neither on its
way nor freed. -/
theorem sent_mbuf_lost : ∃ mgr, CLatencyManager.create ⟨0, false, false⟩ pairCfg = some mgr ∧
    let s := (start mgr false).step ⟨0, false, false⟩ (.send 0 ⟨1, true, true⟩ 0)
    s.generated = 1 ∧ s.freed = [] ∧ s.rings = [] ∧
      ¬ (start mgr false).OwnedRun ⟨0, false, false⟩ [.send 0 ⟨1, true, true⟩ 0] := by
  refine ⟨_, rfl, rfl, rfl, rfl, ?_⟩
  rintro ⟨-, hown⟩
  have hlen := hown.mbufs.length_eq
  exact absurd hlen (by decide)

end LatencyIo

end Trex.Lat
