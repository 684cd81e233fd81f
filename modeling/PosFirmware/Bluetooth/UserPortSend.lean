import Mathlib.Tactic
import PosFirmware.Bluetooth.UserPort

/-!
# What the Bluetooth port sends

`hci_cmd_send_data_send_step` reads the front of the send queue and gives it to `rfcomm_send`;
`hci_cmd_send_data_read_resp_step` deletes as many bytes when the transmission is over. The
bytes go out at most once and in order, and leave the queue only then, or with a reset
(`send_atMostOnce`). A reset drops what is queued (`close_drops`).
-/

namespace PosFirmware.Bluetooth

open PosFirmware.Foundation

/-- A byte is among those of an interval. -/
def Within (i : Nat) (interval : Nat × Nat) : Prop :=
  interval.1 ≤ i ∧ i < interval.1 + interval.2

/-- A byte was given to a `rfcomm_send` that succeeded. -/
def BtPort.HandedOver (s : BtPort) (i : Nat) : Prop :=
  ∃ piece ∈ s.handed, Within i (piece.1, piece.2.length)

/-- A byte was dropped with a reset of the queue. -/
def BtPort.Wiped (s : BtPort) (i : Nat) : Prop := ∃ interval ∈ s.wiped, Within i interval

/-- A byte was deleted after the queue was reset behind the look at its front. -/
def BtPort.Astray (s : BtPort) (i : Nat) : Prop := ∃ interval ∈ s.astray, Within i interval

/-- The bytes are handed over at most once and in order, they leave the queue only then, and the
machine comes back to its first step. -/
structure SendsOnce (s : BtPort) : Prop where
  /-- What is in the queue are the last bytes accepted. -/
  queued : s.sendQue.contents = s.accepted.drop s.gone
  /-- What is handed over are bytes that were accepted. -/
  pieces : ∀ piece ∈ s.handed, piece.2 <+: s.accepted.drop piece.1
  /-- Each byte at most once, in order. -/
  inOrder : s.handed.Pairwise fun first second => first.1 + first.2.length ≤ second.1
  /-- A byte that left the queue was handed over or dropped with a reset. -/
  left : ∀ i < s.gone, s.HandedOver i ∨ s.Wiped i ∨ s.Astray i
  /-- When no response is awaited, the next pass comes back to the first step. -/
  back : s.null = false → s.sendingDataFlag = false → s.task = .first → s.step = .readResp →
    ∀ a b, (btStep (btStep s (.task a)) (.task b)).step = .sendData
  /-- Without a connection the machine stays there. -/
  stays : s.null = false → s.connected = false → s.task = .first → s.step = .sendData →
    ∀ a, (btStep s (.task a)).step = .sendData ∧ (btStep s (.task a)).task = .first
  /-- With one, the front of the queue is handed over. -/
  sends : s.null = false → s.connected = true → s.task = .first → s.step = .sendData →
    s.sendQue.contents ≠ [] → ∀ a, (btStep (btStep s (.task a)) (.task true)).handed =
      s.handed ++ [(s.gone, s.sendQue.contents.take SEND_DATA_SIZE)]

/-! ## The invariant -/

/-- The bytes from here on were not handed over yet. -/
def BtPort.frontier (s : BtPort) : Nat :=
  if s.step = .readResp ∧ s.overtaken = false then s.gone + s.sendingLen else s.gone

/-- The task has bytes that it is about to hand over. -/
structure Handing (s : BtPort) (start : Nat) (bytes : List Byte) : Prop where
  step : s.step = .sendData
  piece : bytes <+: s.accepted.drop start
  after : ∀ piece ∈ s.handed, piece.1 + piece.2.length ≤ start
  front : s.overtaken = false → start = s.gone ∧ bytes.length ≤ s.sendQue.count
  behind : s.overtaken = true → start + bytes.length ≤ s.gone

/-- The invariant of the send queue and the task. -/
structure SendKept (s : BtPort) : Prop where
  inside : s.gone ≤ s.accepted.length
  queued : s.sendQue.contents = s.accepted.drop s.gone
  pieces : ∀ piece ∈ s.handed, piece.2 <+: s.accepted.drop piece.1
  inOrder : s.handed.Pairwise fun first second => first.1 + first.2.length ≤ second.1
  left : ∀ i < s.gone, s.HandedOver i ∨ s.Wiped i ∨ s.Astray i
  before : ∀ piece ∈ s.handed, piece.1 + piece.2.length ≤ s.frontier
  awaited : s.step = .readResp → s.overtaken = false → s.sendingLen ≤ s.sendQue.count ∧
    ∃ piece ∈ s.handed, piece.1 = s.gone ∧ piece.2.length = s.sendingLen
  handing : ∀ start bytes, s.task = .handing start bytes → Handing s start bytes

section Steps

variable {s : BtPort}

theorem SendKept.gone_add_count (kept : SendKept s) :
    s.gone + s.sendQue.count = s.accepted.length := by
  have length := congrArg List.length kept.queued
  rw [RingBuffer.length_contents, List.length_drop] at length
  have inside := kept.inside
  omega

theorem SendKept.resetSend (kept : SendKept s) : SendKept s.resetSend := by
  have total := kept.gone_add_count
  constructor
  case inside => exact total.le
  case queued =>
    show (queReset s.sendQue).contents = s.accepted.drop (s.gone + s.sendQue.count)
    rw [contents_queReset, total, List.drop_length]
  case pieces => exact kept.pieces
  case inOrder => exact kept.inOrder
  case left =>
    intro i early
    by_cases earlier : i < s.gone
    · obtain handed | ⟨interval, member, within⟩ | astray := kept.left i earlier
      · exact .inl handed
      · exact .inr (.inl ⟨interval, List.mem_append_left _ member, within⟩)
      · exact .inr (.inr astray)
    · exact .inr (.inl ⟨_, List.mem_append_right _ (List.mem_singleton.mpr rfl),
        Nat.le_of_not_lt earlier, early⟩)
  case before =>
    intro piece member
    have bound := kept.before piece member
    have reset : s.resetSend.frontier = s.gone + s.sendQue.count :=
      if_neg (by simp [BtPort.resetSend])
    rw [reset]
    refine bound.trans ?_
    unfold BtPort.frontier
    split
    · next awaits =>
      have short := (kept.awaited awaits.1 awaits.2).1
      omega
    · omega
  case awaited => nofun
  case handing =>
    intro start bytes same
    obtain ⟨step, piece, after, front, behind⟩ := kept.handing start bytes same
    refine ⟨step, piece, after, nofun, fun _ => ?_⟩
    show start + bytes.length ≤ s.gone + s.sendQue.count
    cases overtaken : s.overtaken with
    | false =>
      obtain ⟨rfl, short⟩ := front overtaken
      omega
    | true =>
      have early := behind overtaken
      omega

theorem SendKept.same {t : BtPort} (kept : SendKept s) (sendQue : t.sendQue = s.sendQue)
    (accepted : t.accepted = s.accepted) (gone : t.gone = s.gone) (handed : t.handed = s.handed)
    (wiped : t.wiped = s.wiped) (astray : t.astray = s.astray) (step : t.step = s.step)
    (overtaken : t.overtaken = s.overtaken) (sendingLen : t.sendingLen = s.sendingLen)
    (task : t.task = s.task) : SendKept t := by
  cases s
  cases t
  dsimp only at sendQue accepted gone handed wiped astray step overtaken sendingLen task
  subst sendQue accepted gone handed wiped astray step overtaken sendingLen task
  refine ⟨kept.inside, kept.queued, kept.pieces, kept.inOrder, kept.left, kept.before, kept.awaited,
    fun start bytes same => ?_⟩
  obtain ⟨step, piece, after, front, behind⟩ := kept.handing start bytes same
  exact ⟨step, piece, after, front, behind⟩

theorem SendKept.puts (kept : SendKept s) (szData : List Byte) :
    SendKept { s with
      sendQue := quePuts s.sendQue szData
      accepted := s.accepted ++ szData.take s.sendQue.room } := by
  have longer : ∀ n, s.accepted.drop n <+: (s.accepted ++ szData.take s.sendQue.room).drop n :=
    fun n => by
      rw [List.drop_append]
      exact List.prefix_append _ _
  have counted : s.sendQue.count ≤ (quePuts s.sendQue szData).count := by
    rw [← RingBuffer.length_contents, ← RingBuffer.length_contents, contents_quePuts,
      List.length_append]
    exact Nat.le_add_right _ _
  constructor
  case inside =>
    show s.gone ≤ (s.accepted ++ _).length
    rw [List.length_append]
    exact kept.inside.trans (Nat.le_add_right _ _)
  case queued =>
    show (quePuts s.sendQue szData).contents = (s.accepted ++ _).drop s.gone
    rw [contents_quePuts, List.drop_append_of_le_length kept.inside, kept.queued]
  case pieces => exact fun piece member => (kept.pieces piece member).trans (longer piece.1)
  case inOrder => exact kept.inOrder
  case left => exact kept.left
  case before => exact kept.before
  case awaited =>
    intro step overtaken
    obtain ⟨short, piece⟩ := kept.awaited step overtaken
    exact ⟨short.trans counted, piece⟩
  case handing =>
    intro start bytes same
    obtain ⟨step, piece, after, front, behind⟩ := kept.handing start bytes same
    refine ⟨step, piece.trans (longer start), after, fun overtaken => ?_, behind⟩
    obtain ⟨first, short⟩ := front overtaken
    exact ⟨first, short.trans counted⟩

theorem SendKept.peek (kept : SendKept s) (step : s.step = .sendData) :
    SendKept { s with
      task := .handing s.gone (queGetsWithoutDelete SEND_DATA_SIZE s.sendQue)
      overtaken := false
      sendingDataFlag := true } := by
  have idle : s.frontier = s.gone := if_neg fun awaits => by
    rw [step] at awaits
    cases awaits.1
  have before := kept.before
  rw [idle] at before
  constructor
  case inside => exact kept.inside
  case queued => exact kept.queued
  case pieces => exact kept.pieces
  case inOrder => exact kept.inOrder
  case left => exact kept.left
  case before =>
    unfold BtPort.frontier
    dsimp only
    rw [if_neg fun awaits => by rw [step] at awaits; cases awaits.1]
    exact before
  case awaited =>
    intro awaits
    rw [show s.step = .readResp from awaits] at step
    cases step
  case handing =>
    rintro start bytes same
    cases same
    refine ⟨step, ?_, before, fun _ => ⟨rfl, ?_⟩, nofun⟩
    · show queGetsWithoutDelete SEND_DATA_SIZE s.sendQue <+: s.accepted.drop s.gone
      rw [queGetsWithoutDelete_eq, kept.queued]
      exact List.take_prefix _ _
    · show (queGetsWithoutDelete SEND_DATA_SIZE s.sendQue).length ≤ s.sendQue.count
      rw [queGetsWithoutDelete_eq, List.length_take, RingBuffer.length_contents]
      exact Nat.min_le_right _ _

theorem SendKept.task (kept : SendKept s) {task : SendTask} (next : task = .first ∨ task = .second)
    {flag : Bool} : SendKept { s with sendingDataFlag := flag, task := task } :=
  ⟨kept.inside, kept.queued, kept.pieces, kept.inOrder, kept.left, kept.before, kept.awaited,
    fun start bytes same => by obtain rfl | rfl := next <;> cases same⟩

theorem SendKept.sent (kept : SendKept s) {start : Nat} {bytes : List Byte}
    (handing : Handing s start bytes) :
    SendKept { s with
      handed := s.handed ++ [(start, bytes)]
      step := .readResp
      sendingLen := bytes.length
      task := .second } := by
  obtain ⟨step, piece, after, front, behind⟩ := handing
  have last : (start, bytes) ∈ s.handed ++ [(start, bytes)] :=
    List.mem_append_right _ (List.mem_singleton.mpr rfl)
  constructor
  case inside => exact kept.inside
  case queued => exact kept.queued
  case pieces =>
    intro other member
    obtain earlier | same := List.mem_append.mp member
    · exact kept.pieces other earlier
    · rw [List.mem_singleton.mp same]
      exact piece
  case inOrder =>
    refine List.pairwise_append.mpr ⟨kept.inOrder, List.pairwise_singleton _ _, ?_⟩
    intro first earlier second same
    rw [List.mem_singleton.mp same]
    exact after first earlier
  case left =>
    intro i early
    obtain ⟨other, member, within⟩ | dropped := kept.left i early
    · exact .inl ⟨other, List.mem_append_left _ member, within⟩
    · exact .inr dropped
  case before =>
    intro other member
    have bound : other.1 + other.2.length ≤ start + bytes.length := by
      obtain earlier | same := List.mem_append.mp member
      · exact (after other earlier).trans (Nat.le_add_right _ _)
      · rw [List.mem_singleton.mp same]
    refine bound.trans ?_
    unfold BtPort.frontier
    dsimp only
    cases overtaken : s.overtaken with
    | false => rw [if_pos ⟨rfl, rfl⟩, (front overtaken).1]
    | true =>
      rw [if_neg (by simp)]
      exact behind overtaken
  case awaited =>
    intro _ overtaken
    obtain ⟨first, short⟩ := front overtaken
    exact ⟨short, (start, bytes), last, first, rfl⟩
  case handing => nofun

theorem SendKept.delete (kept : SendKept s) (step : s.step = .readResp) :
    SendKept ({ s with step := .sendData, task := .first }.deleteSend s.sendingLen) := by
  obtain ⟨got, rest⟩ := queGets_eq s.sendingLen s.sendQue
  have total := kept.gone_add_count
  have length : (queGets s.sendingLen s.sendQue).1.length = min s.sendingLen s.sendQue.count := by
    rw [got, List.length_take, RingBuffer.length_contents]
  constructor
  case inside =>
    show s.gone + (queGets s.sendingLen s.sendQue).1.length ≤ s.accepted.length
    omega
  case queued =>
    show (queGets s.sendingLen s.sendQue).2.contents =
      s.accepted.drop (s.gone + (queGets s.sendingLen s.sendQue).1.length)
    rw [rest, kept.queued, List.drop_drop, length]
    by_cases all : s.sendingLen ≤ s.sendQue.count
    · rw [Nat.min_eq_left all]
    · rw [List.drop_of_length_le (by omega), List.drop_of_length_le (by omega)]
  case pieces => exact kept.pieces
  case inOrder => exact kept.inOrder
  case left =>
    intro i early
    have early : i < s.gone + (queGets s.sendingLen s.sendQue).1.length := early
    by_cases earlier : i < s.gone
    · obtain handed | wiped | ⟨interval, member, within⟩ := kept.left i earlier
      · exact .inl handed
      · exact .inr (.inl wiped)
      · refine .inr (.inr ⟨interval, ?_, within⟩)
        show interval ∈ if s.overtaken then s.astray ++ _ else s.astray
        split
        · exact List.mem_append_left _ member
        · exact member
    · have late := Nat.le_of_not_lt earlier
      cases overtaken : s.overtaken with
      | false =>
        obtain ⟨short, piece, member, first, long⟩ := kept.awaited step overtaken
        refine .inl ⟨piece, member, ?_, ?_⟩
        · exact first.trans_le late
        · show i < piece.1 + piece.2.length
          omega
      | true =>
        refine .inr (.inr ⟨(s.gone, (queGets s.sendingLen s.sendQue).1.length), ?_, late, early⟩)
        exact List.mem_append_right s.astray (List.mem_singleton.mpr rfl)
  case before =>
    intro piece member
    have bound := kept.before piece member
    show _ ≤ s.gone + (queGets s.sendingLen s.sendQue).1.length
    unfold BtPort.frontier at bound
    split at bound
    · next awaits =>
      have short := (kept.awaited awaits.1 awaits.2).1
      omega
    · omega
  case awaited => nofun
  case handing => nofun

theorem SendKept.run (kept : SendKept s) (success : Bool) :
    SendKept (btRunLoopSendData s success) := by
  unfold btRunLoopSendData
  split
  · split
    · next step =>
      unfold hciCmdSendDataSendStep
      split
      · have reset := kept.resetSend
        have turned := @SendKept.task _ reset .first (.inl rfl) s.sendingDataFlag
        exact turned.same rfl rfl rfl rfl rfl rfl step.symm rfl rfl rfl
      · split
        · exact kept.task (.inl rfl)
        · split
          · exact kept.task (.inl rfl)
          · exact kept.peek step
    · exact kept.task (.inr rfl)
  · split
    · next step =>
      unfold hciCmdSendDataReadRespStep
      split
      · exact kept.task (.inl rfl)
      · split
        · exact kept.task (.inl rfl)
        · exact kept.delete step
    · exact kept.task (.inl rfl)
  · next start bytes task =>
    unfold hciCmdSendDataSent
    split
    · exact kept.sent (kept.handing start bytes task)
    · exact kept.task (.inl rfl)

theorem SendKept.continue (kept : SendKept s) (timeUp : Bool) : SendKept (s.continue timeUp) := by
  have idle : ∀ call answer recvQue, SendKept { s with
      call := call, answer := answer, recvQue := recvQue } := fun call answer recvQue =>
    kept.same rfl rfl rfl rfl rfl rfl rfl rfl rfl rfl
  unfold BtPort.continue
  split
  · exact kept
  · split
    · split
      · exact idle ..
      · exact kept
    · exact idle ..
  · split <;> exact idle ..
  · next szData _ => exact (kept.puts szData).same rfl rfl rfl rfl rfl rfl rfl rfl rfl rfl
  · dsimp only
    split
    · exact idle ..
    · split
      · split <;> exact idle ..
      · split <;> exact idle ..

theorem SendKept.begin (kept : SendKept s) (call : UserCall) : SendKept (call.begin s) := by
  have idle : ∀ call answer recvQue null, SendKept { s with
      call := call, answer := answer, recvQue := recvQue, null := null } :=
    fun call answer recvQue null => kept.same rfl rfl rfl rfl rfl rfl rfl rfl rfl rfl
  have reset := kept.resetSend
  cases call with
  | openDevice =>
    show SendKept (btOpen s)
    unfold btOpen
    split
    · exact idle ..
    · exact reset.same rfl rfl rfl rfl rfl rfl rfl rfl rfl rfl
  | «open» =>
    show SendKept (btUserPortOpen s)
    unfold btUserPortOpen
    split
    · exact idle ..
    · exact reset.same rfl rfl rfl rfl rfl rfl rfl rfl rfl rfl
  | close =>
    show SendKept (btUserPortClose s)
    unfold btUserPortClose
    split
    · exact idle ..
    · exact reset.same rfl rfl rfl rfl rfl rfl rfl rfl rfl rfl
  | sends szData =>
    show SendKept (btUserPortSends szData s)
    unfold btUserPortSends
    repeat' split
    all_goals exact idle ..
  | recvs usLen ms =>
    show SendKept (btUserPortRecvs usLen ms s)
    unfold btUserPortRecvs
    repeat' split
    all_goals exact idle ..
  | reset =>
    show SendKept (btUserPortReset s)
    unfold btUserPortReset
    repeat' split
    all_goals exact idle ..
  | txPoolCheck =>
    show SendKept (btUserPortTxPoolCheck s)
    unfold btUserPortTxPoolCheck
    split
    · exact idle ..
    · split <;> exact idle ..
  | peep szDataNull iLen =>
    show SendKept (btUserPortPeep szDataNull iLen s)
    unfold btUserPortPeep
    repeat' split
    all_goals exact idle ..

end Steps

/-- **Every event** keeps the invariant. -/
theorem sendStep_keeps (s : BtPort) (event : BtEvent) (kept : SendKept s) :
    SendKept (btStep s event) := by
  unfold btStep
  split
  · exact kept
  · cases event with
    | connect => exact kept.same rfl rfl rfl rfl rfl rfl rfl rfl rfl rfl
    | disconnect => exact kept.same rfl rfl rfl rfl rfl rfl rfl rfl rfl rfl
    | data packet => exact kept.same rfl rfl rfl rfl rfl rfl rfl rfl rfl rfl
    | hci eventType =>
      dsimp only
      unfold btHciEvent
      split
      · exact kept.same rfl rfl rfl rfl rfl rfl rfl rfl rfl rfl
      · exact kept
    | call call =>
      dsimp only
      split
      · exact kept.begin call
      · exact kept
    | «continue» timeUp => exact kept.continue timeUp
    | task success => exact kept.run success

/-! ## The steps of the machine -/

theorem btStep_task {s : BtPort} (noNull : s.null = false) (success : Bool) :
    btStep s (.task success) = btRunLoopSendData s success := by
  unfold btStep
  rw [if_neg (by rw [noNull]; decide)]

theorem comesBack {s : BtPort} (noNull : s.null = false) (flag : s.sendingDataFlag = false)
    (task : s.task = .first) (step : s.step = .readResp) (a b : Bool) :
    (btStep (btStep s (.task a)) (.task b)).step = .sendData := by
  have first : btRunLoopSendData s a = { s with task := .second } := by
    unfold btRunLoopSendData
    simp only [task, step]
    rfl
  rw [btStep_task noNull, first, btStep_task (s := { s with task := .second }) noNull]
  unfold btRunLoopSendData hciCmdSendDataReadRespStep
  simp only [step, flag]
  rfl

theorem staysBack {s : BtPort} (noNull : s.null = false) (connected : s.connected = false)
    (task : s.task = .first) (step : s.step = .sendData) (a : Bool) :
    (btStep s (.task a)).step = .sendData ∧ (btStep s (.task a)).task = .first := by
  have run : btRunLoopSendData s a =
      { s.resetSend with step := .sendData, task := .first } := by
    unfold btRunLoopSendData hciCmdSendDataSendStep
    simp only [task, step, connected]
    rfl
  rw [btStep_task noNull, run]
  exact ⟨rfl, rfl⟩

theorem handsOver {s : BtPort} (noNull : s.null = false) (connected : s.connected = true)
    (task : s.task = .first) (step : s.step = .sendData) (some : s.sendQue.contents ≠ [])
    (a : Bool) : (btStep (btStep s (.task a)) (.task true)).handed =
      s.handed ++ [(s.gone, s.sendQue.contents.take SEND_DATA_SIZE)] := by
  have filled : ¬ queIsEmpty s.sendQue = true := fun empty => some (queIsEmpty_iff.mp empty)
  have first : btRunLoopSendData s a = { s with
      task := .handing s.gone (queGetsWithoutDelete SEND_DATA_SIZE s.sendQue)
      overtaken := false
      sendingDataFlag := true } := by
    unfold btRunLoopSendData hciCmdSendDataSendStep
    simp only [task, step, connected, if_neg filled]
    rfl
  have noNull' : ({ s with
      task := .handing s.gone (queGetsWithoutDelete SEND_DATA_SIZE s.sendQue)
      overtaken := false
      sendingDataFlag := true } : BtPort).null = false := noNull
  rw [btStep_task noNull, first, btStep_task noNull', ← queGetsWithoutDelete_eq]
  rfl

theorem btStart_send (recvFifo sendFifo : Nat → Byte) :
    SendKept (btStart recvFifo sendFifo) where
  inside := le_rfl
  queued := by
    unfold btStart
    rw [RingBuffer.contents_empty]
    rfl
  pieces := nofun
  inOrder := List.Pairwise.nil
  left := nofun
  before := nofun
  awaited := nofun
  handing := nofun

/-- **The Bluetooth port sends at most once and in order** in every run: a byte leaves the queue
only if it was handed over or with a reset of the queue, and when no response is awaited the
machine comes back to its first step and hands over what is queued. -/
theorem send_atMostOnce (recvFifo sendFifo : Nat → Byte) (events : List BtEvent) :
    SendsOnce (runEvents btStep (btStart recvFifo sendFifo) events) := by
  have kept : SendKept (runEvents btStep (btStart recvFifo sendFifo) events) :=
    runEvents_always sendStep_keeps (btStart_send recvFifo sendFifo)
  exact ⟨kept.queued, kept.pieces, kept.inOrder, kept.left, comesBack, staysBack, handsOver⟩

/-- A byte is sent on a connection, and then the port is closed. -/
def closedEarly : List BtEvent :=
  [.call .openDevice, .connect, .call (.sends [0x41]), .continue false, .continue false,
    .continue false, .call .close]

/-- **Closing the port drops what is queued**: the byte was accepted, left the queue and was not
handed over. -/
theorem close_drops :
    ¬ ∀ i < (runEvents btStep (btStart (fun _ => 0) fun _ => 0) closedEarly).gone,
      (runEvents btStep (btStart (fun _ => 0) fun _ => 0) closedEarly).HandedOver i := by
  intro all
  obtain ⟨piece, member, -⟩ := all 0 (by decide)
  have none : (runEvents btStep (btStart (fun _ => 0) fun _ => 0) closedEarly).handed = [] := by
    decide
  rw [none] at member
  cases member

end PosFirmware.Bluetooth
