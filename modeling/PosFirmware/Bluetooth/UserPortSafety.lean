import Mathlib.Tactic
import PosFirmware.Bluetooth.UserPort

/-!
# The Bluetooth port in every link state

A call chooses its queue by the connection flag and uses it without a look at the choice: the
calls are safe exactly as long as they are made while the flag is set
(`port_calls_safe_iff`).
-/

namespace PosFirmware.Bluetooth

open PosFirmware.Foundation

/-- The calls that use a queue. -/
def UserCall.uses : UserCall → Bool
  | .openDevice | .open | .close => false
  | _ => true

/-- The codes that tell of an error. -/
def UserCall.IsError (code : Int) : UserCall → Prop
  | .recvs _ _ | .peep _ _ => code < 0
  | _ => 2 ≤ code

/-- A call ends with an error and leaves the queues. -/
def Refused (call : UserCall) (s after : BtPort) : Prop :=
  ∃ code, call.IsError code ∧ after.answer = some ⟨code, []⟩ ∧ after.call = .idle ∧
    after.recvQue = s.recvQue ∧ after.sendQue = s.sendQue

/-- What the application got was received since the port was opened. -/
def Recent (s : BtPort) : Prop :=
  ∀ answer, s.answer = some answer → answer.got <:+: s.received.drop s.openedAt

/-- An event is safe: no call uses a queue that is `NULL`, a call without a connection is refused,
and a call gives nothing from before the port was opened. -/
structure PortSafe (s : BtPort) (event : BtEvent) : Prop where
  noNull : (btStep s event).null = false
  refused : ∀ call, event = .call call → s.call = .idle → s.connected = false →
    call.uses = true → Refused call s (btStep s event)
  recent : Recent (btStep s event)

/-- A call passes the checks before it chooses its queue. -/
def UserCall.Passes (s : BtPort) (call : UserCall) : Prop :=
  s.giBtDevInited = true ∧ s.giBtPortInited = true ∧ call.uses = true ∧
    ∀ iLen, call ≠ .peep true iLen

/-- A call that passes its checks is made while the connection flag is set. -/
def CallsConnected (s : BtPort) : BtEvent → Prop
  | .call call => s.call = .idle → call.Passes s → s.connected = true
  | _ => True

/-- The bytes a call has got so far. -/
def AppCall.got : AppCall → List Byte
  | .recvs _ _ got => got
  | _ => []

/-- The invariant of the receive queue and the calls. -/
structure PortKept (s : BtPort) : Prop where
  noNull : s.null = false
  opened : s.openedAt ≤ s.received.length
  bytes : ∃ before, s.received.drop s.openedAt = before ++ s.call.got ++ s.recvQue.contents
  recent : Recent s

section Steps

variable {s : BtPort}

theorem PortKept.returns (kept : PortKept s) {code : Int} {got : List Byte}
    (recent : got <:+: s.received.drop s.openedAt) : PortKept (s.returns code got) where
  noNull := kept.noNull
  opened := kept.opened
  bytes := by
    obtain ⟨before, same⟩ := kept.bytes
    refine ⟨before ++ s.call.got, ?_⟩
    show s.received.drop s.openedAt = before ++ s.call.got ++ [] ++ s.recvQue.contents
    rw [List.append_nil, same]
  recent := by
    intro answer same
    cases same
    exact recent

theorem PortKept.returnsNone (kept : PortKept s) {code : Int} : PortKept (s.returns code []) :=
  kept.returns List.nil_infix

theorem PortKept.resetRecv (kept : PortKept s) (idle : s.call = .idle) : PortKept s.resetRecv where
  noNull := kept.noNull
  opened := kept.opened
  bytes := by
    obtain ⟨before, same⟩ := kept.bytes
    refine ⟨before ++ s.recvQue.contents, ?_⟩
    show s.received.drop s.openedAt = before ++ s.recvQue.contents ++ s.call.got ++
      (queReset s.recvQue).contents
    have none : s.call.got = [] := by rw [idle]; rfl
    rw [contents_queReset, same, none, List.append_nil, List.append_nil, List.append_nil]
  recent := kept.recent

theorem PortKept.reopen (kept : PortKept s) (empty : s.recvQue.contents = [])
    {code : Int} (t : BtPort) (same : t.received = s.received ∧ t.recvQue = s.recvQue ∧
      t.null = s.null ∧ t.openedAt = s.received.length) : PortKept (t.returns code []) := by
  obtain ⟨received, recvQue, null, opened⟩ := same
  have none : t.received.drop t.openedAt = [] := by
    rw [received, opened, List.drop_length]
  refine ⟨null.trans kept.noNull, ?_, ⟨[], ?_⟩, ?_⟩
  · show t.openedAt ≤ t.received.length
    rw [opened, received]
  · show t.received.drop t.openedAt = [] ++ [] ++ t.recvQue.contents
    rw [none, recvQue, empty]
    rfl
  · intro answer same
    cases same
    exact List.nil_infix

theorem PortKept.data (kept : PortKept s) (packet : List Byte) :
    PortKept (btDataPacket packet s) where
  noNull := kept.noNull
  opened := by
    show s.openedAt ≤ (s.received ++ packet.take s.recvQue.room).length
    rw [List.length_append]
    exact kept.opened.trans (Nat.le_add_right _ _)
  bytes := by
    obtain ⟨before, same⟩ := kept.bytes
    refine ⟨before, ?_⟩
    show (s.received ++ packet.take s.recvQue.room).drop s.openedAt =
      before ++ s.call.got ++ (quePuts s.recvQue packet).contents
    rw [List.drop_append_of_le_length kept.opened, same, contents_quePuts, List.append_assoc]
  recent := by
    intro answer same
    show answer.got <:+: (s.received ++ packet.take s.recvQue.room).drop s.openedAt
    rw [List.drop_append_of_le_length kept.opened]
    exact (kept.recent answer same).trans (List.prefix_append _ _).isInfix

theorem PortKept.waits (kept : PortKept s) {call : AppCall} (empty : call.got = []) :
    PortKept { s with call := call, answer := none } where
  noNull := kept.noNull
  opened := kept.opened
  bytes := by
    obtain ⟨before, same⟩ := kept.bytes
    refine ⟨before ++ s.call.got, ?_⟩
    show s.received.drop s.openedAt = before ++ s.call.got ++ call.got ++ s.recvQue.contents
    rw [empty, List.append_nil, same]
  recent := by
    intro answer same
    cases same

theorem PortKept.takes (kept : PortKept s) {usLen ms : Nat} {got : List Byte}
    (call : s.call = .recvs usLen ms got) (size : Nat) :
    let taken := queGets size s.recvQue
    PortKept { s with recvQue := taken.2, call := .recvs usLen ms (got ++ taken.1) } ∧
      got ++ taken.1 <:+: s.received.drop s.openedAt := by
  dsimp only
  obtain ⟨before, same⟩ := kept.bytes
  obtain ⟨bytes, rest⟩ := queGets_eq size s.recvQue
  have whole : s.received.drop s.openedAt =
      before ++ (got ++ (queGets size s.recvQue).1) ++ (queGets size s.recvQue).2.contents := by
    rw [same, bytes, rest, call, List.append_assoc, List.append_assoc, List.append_assoc,
      List.take_append_drop]
    rfl
  exact ⟨⟨kept.noNull, kept.opened, ⟨before, whole⟩, kept.recent⟩, ⟨before, _, whole.symm⟩⟩

theorem PortKept.continue (kept : PortKept s) (timeUp : Bool) : PortKept (s.continue timeUp) := by
  unfold BtPort.continue
  have sending : ∀ call : AppCall, s.call.got = [] → call.got = [] →
      PortKept { s with call := call } := by
    intro call first then_
    obtain ⟨before, same⟩ := kept.bytes
    exact ⟨kept.noNull, kept.opened, ⟨before, by rw [first] at same; simpa [then_] using same⟩,
      kept.recent⟩
  split
  · exact kept
  · next szData call =>
    split
    · split
      · exact kept.returnsNone
      · exact kept
    · exact sending _ (by rw [call]; rfl) rfl
  · next szData call =>
    split
    · exact kept.returnsNone
    · exact sending _ (by rw [call]; rfl) rfl
  · next szData call =>
    have put := @PortKept.returnsNone s kept 0
    exact ⟨put.noNull, put.opened, put.bytes, put.recent⟩
  · next usLen ms got call =>
    obtain ⟨taken, recent⟩ := kept.takes call (usLen - got.length)
    dsimp only at taken recent ⊢
    have ended := @PortKept.returns _ taken
      (got ++ (queGets (usLen - got.length) s.recvQue).1).length _ recent
    have failed := @PortKept.returnsNone _ taken (-255)
    split
    · exact ended
    · split
      · split
        · exact taken
        · exact ended
      · split
        · exact ended
        · exact failed

theorem PortKept.task (kept : PortKept s) (success : Bool) :
    PortKept (btRunLoopSendData s success) := by
  have other : ∀ t : BtPort, t.null = s.null → t.openedAt = s.openedAt → t.received = s.received →
      t.call = s.call → t.recvQue = s.recvQue → t.answer = s.answer → PortKept t := by
    intro t null opened received call recvQue answer
    obtain ⟨noNull, opened', bytes, recent⟩ := kept
    unfold Recent at recent
    rw [← null] at noNull
    rw [← opened, ← received] at opened' bytes
    rw [← call, ← recvQue] at bytes
    rw [← answer, ← received, ← opened] at recent
    exact ⟨noNull, opened', bytes, recent⟩
  apply other <;>
  · unfold btRunLoopSendData hciCmdSendDataSendStep hciCmdSendDataReadRespStep hciCmdSendDataSent
    repeat' split
    all_goals rfl

theorem UserCall.begin_refused (call : UserCall) (uses : call.uses = true)
    (refused : ¬ call.Passes s) :
    ∃ code, call.IsError code ∧ call.begin s = s.returns code [] := by
  by_cases flags : s.giBtDevInited = false ∨ s.giBtPortInited = false
  · cases call with
    | openDevice | «open» | close => cases uses
    | sends szData => exact ⟨3, show (2 : Int) ≤ 3 by decide, if_pos flags⟩
    | recvs usLen ms => exact ⟨-3, show (-3 : Int) < 0 by decide, if_pos flags⟩
    | reset => exact ⟨3, show (2 : Int) ≤ 3 by decide, if_pos flags⟩
    | txPoolCheck => exact ⟨3, show (2 : Int) ≤ 3 by decide, if_pos flags⟩
    | peep szDataNull iLen => exact ⟨-3, show (-3 : Int) < 0 by decide, if_pos flags⟩
  · have peeps : ∃ iLen, call = .peep true iLen := by
      by_contra others
      push Not at others flags
      exact refused ⟨by simpa using flags.1, by simpa using flags.2, uses, others⟩
    obtain ⟨iLen, rfl⟩ := peeps
    exact ⟨-1, show (-1 : Int) < 0 by decide, (if_neg flags).trans (if_pos rfl)⟩

/-- A call with a connection keeps the invariant. -/
theorem PortKept.begin (kept : PortKept s) (idle : s.call = .idle) (call : UserCall)
    (connected : call.Passes s → s.connected = true) : PortKept (call.begin s) := by
  by_cases uses : call.uses = true
  · by_cases passes : call.Passes s
    · have link := connected passes
      obtain ⟨dev, port, -, others⟩ := passes
      have flags : ¬ (s.giBtDevInited = false ∨ s.giBtPortInited = false) := by simp [dev, port]
      cases call with
      | openDevice | «open» | close => cases uses
      | sends szData =>
        show PortKept (btUserPortSends szData s)
        rw [btUserPortSends, if_neg flags, if_pos link]
        exact kept.waits rfl
      | recvs usLen ms =>
        show PortKept (btUserPortRecvs usLen ms s)
        by_cases zero : usLen = 0
        · rw [btUserPortRecvs, if_neg flags, if_pos zero]
          exact kept.returnsNone
        · rw [btUserPortRecvs, if_neg flags, if_neg zero, if_pos link]
          exact kept.waits rfl
      | reset =>
        show PortKept (btUserPortReset s)
        rw [btUserPortReset, if_neg flags, if_pos link]
        exact (kept.resetRecv idle).returnsNone
      | txPoolCheck =>
        show PortKept (btUserPortTxPoolCheck s)
        rw [btUserPortTxPoolCheck, if_neg flags, if_pos link]
        exact kept.returnsNone
      | peep szDataNull iLen =>
        show PortKept (btUserPortPeep szDataNull iLen s)
        have given : ¬ szDataNull = true := fun same => others iLen (by rw [same])
        rw [btUserPortPeep, if_neg flags, if_neg given, if_pos link]
        apply kept.returns
        rw [queGetsWithoutDelete_eq]
        obtain ⟨before, same⟩ := kept.bytes
        rw [same]
        exact (List.take_prefix _ _).isInfix.trans (List.suffix_append _ _).isInfix
    · obtain ⟨code, -, same⟩ := call.begin_refused uses passes
      rw [same]
      exact kept.returnsNone
  · have reset := kept.resetRecv idle
    have none : s.resetRecv.recvQue.contents = [] := contents_queReset _
    cases call with
    | sends | recvs | reset | txPoolCheck | peep => exact absurd rfl uses
    | openDevice =>
      show PortKept (btOpen s)
      unfold btOpen
      split
      · exact kept.returnsNone
      · exact @PortKept.reopen s.resetRecv reset none 0 _ ⟨rfl, rfl, rfl, rfl⟩
    | «open» =>
      show PortKept (btUserPortOpen s)
      unfold btUserPortOpen
      split
      · exact kept.returnsNone
      · exact @PortKept.reopen s.resetRecv reset none 0 _ ⟨rfl, rfl, rfl, rfl⟩
    | close =>
      show PortKept (btUserPortClose s)
      unfold btUserPortClose
      split
      · exact kept.returnsNone
      · have closed := @PortKept.returnsNone _ reset 0
        exact ⟨closed.noNull, closed.opened, closed.bytes, closed.recent⟩

theorem UserCall.begin_disconnected (call : UserCall) (passes : call.Passes s)
    (gone : s.connected = false) :
    (call.begin s).null = true ∨ ∃ ms, call = .recvs 0 ms ∧ call.begin s = s.returns 0 [] := by
  obtain ⟨dev, port, uses, others⟩ := passes
  have flags : ¬ (s.giBtDevInited = false ∨ s.giBtPortInited = false) := by simp [dev, port]
  have link : ¬ s.connected = true := by simp [gone]
  cases call with
  | openDevice | «open» | close => cases uses
  | sends szData =>
    left
    show (btUserPortSends szData s).null = true
    rw [btUserPortSends, if_neg flags, if_neg link]
    rfl
  | recvs usLen ms =>
    by_cases zero : usLen = 0
    · right
      refine ⟨ms, by rw [zero], ?_⟩
      show btUserPortRecvs usLen ms s = _
      rw [btUserPortRecvs, if_neg flags, if_pos zero]
    · left
      show (btUserPortRecvs usLen ms s).null = true
      rw [btUserPortRecvs, if_neg flags, if_neg zero, if_neg link]
      rfl
  | reset =>
    left
    show (btUserPortReset s).null = true
    rw [btUserPortReset, if_neg flags, if_neg link]
    rfl
  | txPoolCheck =>
    left
    show (btUserPortTxPoolCheck s).null = true
    rw [btUserPortTxPoolCheck, if_neg flags, if_neg link]
    rfl
  | peep szDataNull iLen =>
    left
    show (btUserPortPeep szDataNull iLen s).null = true
    have given : ¬ szDataNull = true := fun same => others iLen (by rw [same])
    rw [btUserPortPeep, if_neg flags, if_neg given, if_neg link]
    rfl

end Steps

theorem btStep_keeps (s : BtPort) (event : BtEvent) (kept : PortKept s)
    (connected : CallsConnected s event) : PortKept (btStep s event) := by
  unfold btStep
  rw [if_neg (by rw [kept.noNull]; decide)]
  cases event with
  | connect => exact ⟨kept.noNull, kept.opened, kept.bytes, kept.recent⟩
  | disconnect => exact ⟨kept.noNull, kept.opened, kept.bytes, kept.recent⟩
  | data packet => exact kept.data packet
  | hci eventType =>
    dsimp only
    unfold btHciEvent
    split
    · exact ⟨kept.noNull, kept.opened, kept.bytes, kept.recent⟩
    · exact kept
  | call call =>
    dsimp only
    split
    · next idle => exact kept.begin idle call (connected idle)
    · exact kept
  | «continue» timeUp => exact kept.continue timeUp
  | task success => exact kept.task success

theorem portSafe_iff (s : BtPort) (event : BtEvent) (kept : PortKept s) :
    PortSafe s event ↔ CallsConnected s event := by
  constructor
  · intro safe
    cases event with
    | call call =>
      intro idle passes
      by_contra link
      have gone : s.connected = false := by simpa using link
      have begun : btStep s (.call call) = call.begin s := by
        unfold btStep
        rw [if_neg (by rw [kept.noNull]; decide)]
        exact if_pos idle
      have noNull := safe.noNull
      have refused := safe.refused call rfl idle gone passes.2.2.1
      rw [begun] at noNull refused
      obtain used | ⟨ms, rfl, same⟩ := call.begin_disconnected passes gone
      · rw [used] at noNull
        cases noNull
      · obtain ⟨code, error, answer, -⟩ := refused
        rw [same] at answer
        cases answer
        exact absurd error (show ¬ (0 : Int) < 0 by decide)
    | _ => trivial
  · intro connected
    have after := btStep_keeps s event kept connected
    refine ⟨after.noNull, ?_, after.recent⟩
    rintro call rfl idle gone uses
    have fails : ¬ call.Passes s := fun passes =>
      absurd (connected idle passes) (by rw [gone]; decide)
    obtain ⟨code, error, same⟩ := call.begin_refused uses fails
    have begun : btStep s (.call call) = s.returns code [] := by
      unfold btStep
      rw [if_neg (by rw [kept.noNull]; decide)]
      exact (if_pos idle).trans same
    rw [begun]
    exact ⟨code, error, rfl, rfl, rfl, rfl⟩

theorem btStart_kept (recvFifo sendFifo : Nat → Byte) : PortKept (btStart recvFifo sendFifo) where
  noNull := rfl
  opened := le_rfl
  bytes := by
    refine ⟨[], ?_⟩
    have none : (btStart recvFifo sendFifo).recvQue.contents = [] := by
      unfold btStart
      rw [RingBuffer.contents_empty]
    rw [none]
    rfl
  recent := nofun

/-- **The calls of the Bluetooth port are safe** all along a run exactly when each of them that
passes its checks is made while the connection flag is set: then none uses a `NULL` queue, one
without a connection is refused and leaves the queues, and the bytes it gives were received since
the port was opened. -/
theorem port_calls_safe_iff (recvFifo sendFifo : Nat → Byte) (events : List BtEvent) :
    Meets btStep PortSafe (btStart recvFifo sendFifo) events ↔
      Meets btStep CallsConnected (btStart recvFifo sendFifo) events :=
  Meets.congr btStep_keeps portSafe_iff (btStart_kept recvFifo sendFifo) events

/-- **A check of the pool without a connection** reads the places of a `NULL` queue. -/
theorem txPoolCheck_usesNull : ¬ Meets btStep PortSafe (btStart (fun _ => 0) fun _ => 0)
    [.call .openDevice, .call .open, .call .txPoolCheck] := by
  rintro ⟨-, -, last, -⟩
  exact absurd last.noNull (by decide)

end PosFirmware.Bluetooth
