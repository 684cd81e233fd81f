import Mathlib.Tactic
import PosFirmware.Comm.Ports
import PosFirmware.Foundation.Run

/-!
# Which channel has a UART

Opening a channel takes its UART away from every other channel, so that no UART is mapped
twice once it is opened; on a D200 or D210 `s_CommInit` itself maps some twice. The look at a
UART in use depends on the value `s_PortOpen_std` leaves with a channel whose UART was taken; a
channel that `s_CommInit` left without a UART has another one and takes it from the channel
that has it open (`ports_keep_uarts`).
-/

namespace PosFirmware.Comm

open PosFirmware.Foundation

/-- Each UART is mapped by at most one channel. -/
def MappedOnce (s : CommState) : Prop :=
  ∀ c c', s.xtab c < PHY_UART → s.xtab c' = s.xtab c → c' = c

/-- The channels the look at a UART in use protects the others from. -/
def Channel.polite : Channel → Bool
  | .wnet | .wifi | .bt | .barcode | .gps => true
  | _ => false

/-- The UART of a channel is open on behalf of another one. -/
def Occupied (m : Machine) (channel : Channel) (s : CommState) : Prop :=
  ∃ port other, uartOf m channel = some port ∧ other ≠ channel ∧ s.xtab other = port ∧
    s.used port = true

/-- A call passes the checks before the look at the UART: the machine has the channel, PPP
does not use it and the attributes are good. -/
def Openable (m : Machine) (sit : Situation) (channel : Channel) (attr : List Byte) : Prop :=
  ¬ (channel = .wnet ∧ sit.wnetPppUsed) ∧ channelRefused m sit channel = none ∧
    (parseAttr (channel = .wifi) attr).isSome

/-- A call that opens one of these channels on an occupied UART changes nothing, and returns 5
if it passes the other checks. -/
def Refuses (m : Machine) (s : CommState) : PortCall → Prop
  | .open sit (.uart channel) attr =>
    channel.polite = true → Occupied m channel s →
      (portOpenStd m sit (.uart channel) attr s).2 = s ∧
      (Openable m sit channel attr → (portOpenStd m sit (.uart channel) attr s).1 = 0x05)
  | _ => True

/-- A call that opens one of these channels on an occupied UART finds it marked as taken. -/
def FindsTaken (m : Machine) (s : CommState) : PortCall → Prop
  | .open sit (.uart channel) attr =>
    channel.polite = true → Occupied m channel s → Openable m sit channel attr →
      s.xtab channel = TAKEN
  | _ => True

/-! ## One call -/

section Call

variable {m : Machine} {sit : Situation} {s : CommState}

theorem MappedOnce.ite {p : Prop} [Decidable p] {first second : CommState}
    (yes : MappedOnce first) (no : MappedOnce second) :
    MappedOnce (if p then first else second) := by
  split
  · exact yes
  · exact no

theorem MappedOnce.assign (once : MappedOnce s) (channel : Channel) (port : Nat)
    (settings : UartSettings) : MappedOnce (assignUart channel port settings s) := by
  intro c c' inside same
  simp only [assignUart] at inside same
  have taken : ¬ TAKEN < PHY_UART := by decide
  by_cases own : c = channel
  · by_cases own' : c' = channel
    · rw [own, own']
    · rw [if_pos own] at inside same
      rw [if_neg own'] at same
      split at same
      · rw [← same] at inside
        exact absurd inside taken
      · next other => exact absurd same other
  · rw [if_neg own] at inside same
    split at inside
    · exact absurd inside taken
    · next other =>
      rw [if_neg other] at same
      by_cases own' : c' = channel
      · rw [if_pos own'] at same
        exact absurd same.symm other
      · rw [if_neg own'] at same
        split at same
        · rw [← same] at inside
          exact absurd inside taken
        · exact once c c' inside same

theorem MappedOnce.select (once : MappedOnce s) (channel : Channel) :
    MappedOnce (selectUart m channel s) := by
  unfold selectUart
  split
  · split <;> exact once
  · exact once

theorem MappedOnce.open (once : MappedOnce s) (port : PortNo) (attr : List Byte) :
    MappedOnce (sPortOpenStd m sit port attr s).2 := by
  cases port with
  | driver => exact once
  | invalid => exact once
  | uart channel =>
    simp only [sPortOpenStd, sPortOpenUart]
    split
    · exact once
    · split
      · exact once
      · split
        · exact once
        · split
          · exact once
          · exact (once.select channel).assign _ _ _

theorem MappedOnce.closeWith {reopen : CommState → CommState}
    (reopens : ∀ s, MappedOnce s → MappedOnce (reopen s)) (once : MappedOnce s) (port : PortNo) :
    MappedOnce (portCloseWith reopen m sit port s).2 := by
  cases port with
  | driver => exact once
  | invalid => exact once
  | uart channel =>
    unfold portCloseWith
    dsimp only
    split
    · exact once
    · have closed : MappedOnce (closeUart (s.xtab channel) s) := once
      split
      · have after : MappedOnce (if channel = .rs232b ∧ (closeUart (s.xtab channel) s).pinpadStatus
            then reopen (closeUart (s.xtab channel) s) else closeUart (s.xtab channel) s) :=
          MappedOnce.ite (reopens _ closed) closed
        exact MappedOnce.ite after after
      · exact closed

theorem MappedOnce.openStd (once : MappedOnce s) (port : PortNo) (attr : List Byte) :
    MappedOnce (portOpenStd m sit port attr s).2 := by
  unfold portOpenStd
  split
  · exact once
  · dsimp only
    have begun : MappedOnce (if isConfigPinpad m ∧ port = .uart .rs232b ∧ s.pinpadStatus then
        { (portCloseWith id m sit (.uart .pinpad) s).2 with pinpadStatus := true } else s) := by
      split
      · exact @MappedOnce.closeWith m sit s id (fun _ kept => kept) once (.uart .pinpad)
      · exact once
    generalize (if isConfigPinpad m ∧ port = .uart .rs232b ∧ s.pinpadStatus then
        { (portCloseWith id m sit (.uart .pinpad) s).2 with pinpadStatus := true } else s) = first
      at begun
    have opened := @MappedOnce.open m sit first begun port attr
    generalize sPortOpenStd m sit port attr first = result at opened
    obtain ⟨ret, after⟩ := result
    dsimp only at opened ⊢
    split
    · have noted : MappedOnce (if port = .uart .pinpad ∧ ret = 0 then
          { after with pinpadStatus := true, pinpadAttr := attr.take 22 } else after) :=
        MappedOnce.ite opened opened
      exact MappedOnce.ite (noted.open _ _) noted
    · exact opened

theorem MappedOnce.step (once : MappedOnce s) (call : PortCall) :
    MappedOnce (portStep m s call) := by
  cases call with
  | «open» sit port attr => exact once.openStd port attr
  | close sit port => exact once.closeWith (fun s kept => kept.openStd _ _) port

theorem portOpenStd_polite {channel : Channel} (polite : channel.polite = true)
    (attr : List Byte) :
    portOpenStd m sit (.uart channel) attr s =
      if channel = .wnet ∧ sit.wnetPppUsed then (0xf0, s)
      else sPortOpenUart m sit channel attr s := by
  unfold portOpenStd
  cases channel <;> first | exact absurd polite (by decide) | simp [sPortOpenStd]

theorem refuses_iff (call : PortCall) : Refuses m s call ↔ FindsTaken m s call := by
  cases call with
  | close sit port => exact Iff.rfl
  | «open» sit port attr =>
    cases port with
    | driver => exact Iff.rfl
    | invalid => exact Iff.rfl
    | uart channel =>
      unfold Refuses FindsTaken
      refine forall_congr' fun polite => forall_congr' fun occupied => ?_
      obtain ⟨port, other, has, -, -, used⟩ := id occupied
      rw [portOpenStd_polite polite]
      have looks : channel.looks = true := by
        cases channel <;> first | rfl | exact absurd polite (by decide)
      by_cases ppp : channel = .wnet ∧ sit.wnetPppUsed
      · rw [if_pos ppp]
        exact iff_of_true ⟨rfl, fun openable => absurd ppp openable.1⟩
          fun openable => absurd ppp openable.1
      · rw [if_neg ppp]
        unfold sPortOpenUart
        cases refused : channelRefused m sit channel with
        | some code =>
          have not : ¬ Openable m sit channel attr := fun openable => by
            rw [Openable, refused] at openable
            exact absurd openable.2.1 (by simp)
          exact iff_of_true ⟨rfl, fun openable => absurd openable not⟩
            fun openable => absurd openable not
        | none =>
          cases parsed : parseAttr (channel = .wifi) attr with
          | none =>
            have not : ¬ Openable m sit channel attr := fun openable => by
              rw [Openable, parsed] at openable
              exact absurd openable.2.2 (by simp)
            exact iff_of_true ⟨rfl, fun openable => absurd openable not⟩
              fun openable => absurd openable not
          | some settings =>
            have openable : Openable m sit channel attr := ⟨ppp, refused, by rw [parsed]; rfl⟩
            simp only [has, looks, used, true_and, and_true]
            by_cases taken : s.xtab channel = TAKEN
            · rw [if_pos taken]
              exact iff_of_true ⟨rfl, fun _ => rfl⟩ fun _ => taken
            · rw [if_neg taken]
              refine iff_of_false (fun refused => ?_) fun finds => taken (finds openable)
              exact absurd (refused.2 openable) (show (0 : Nat) ≠ 0x05 by decide)

end Call

/-- At the start each UART is mapped by at most one channel exactly where the machine is
neither a D200 nor a D210. -/
theorem mappedOnce_start (m : Machine) :
    MappedOnce (sCommInit m) ↔ m.type ≠ .d200 ∧ m.type ≠ .d210 := by
  constructor
  · intro once
    constructor <;> intro type
    · have same := once .wnet .wifi (by simp [sCommInit, startXtab, type, PHY_UART])
        (by simp [sCommInit, startXtab, type])
      cases same
    · have same := once .pinpad .wifi (by simp [sCommInit, startXtab, PHY_UART])
        (by simp [sCommInit, startXtab, type])
      cases same
  · rintro ⟨d200, d210⟩ c c' inside same
    have values : ∀ c, startXtab m c = match c with
        | .modem => 0
        | .wnet => 1
        | .rs232a => 2
        | .pinpad => 3
        | _ => UNSET := by
      intro c
      cases c <;> simp only [startXtab]
    simp only [sCommInit, values] at inside same
    have unset : ¬ UNSET < PHY_UART := by decide
    cases c <;> first | exact absurd inside unset | skip
    all_goals cases c' <;> first | rfl | exact absurd same (by decide)

/-- **Logical ports keep their UARTs**: in every state reached by calls of `PortOpen_std` and
`PortClose_std` each UART is mapped by at most one channel, and opening WNET, WIFI, BT, BARCODE
or GPS on an occupied UART is refused, exactly when the machine is neither a D200 nor a D210
and every such call finds its channel marked as taken. -/
theorem ports_keep_uarts (m : Machine) (calls : List PortCall) :
    ((∀ n, MappedOnce (runEvents (portStep m) (sCommInit m) (calls.take n))) ∧
        Meets (portStep m) (Refuses m) (sCommInit m) calls) ↔
      (m.type ≠ .d200 ∧ m.type ≠ .d210) ∧
        Meets (portStep m) (FindsTaken m) (sCommInit m) calls := by
  have each : Refuses m = FindsTaken m := by
    funext s call
    exact propext (refuses_iff call)
  rw [each]
  refine and_congr_left fun _ => ?_
  rw [← mappedOnce_start m]
  constructor
  · intro always
    exact always 0
  · intro start n
    have each : ∀ s call, MappedOnce s → MappedOnce (portStep m s call) :=
      fun s call once => once.step call
    exact runEvents_always each start

/-- An S900 with the modules for WIFI and Bluetooth. -/
def s900 : Machine := ⟨.s900, false, false, true, true, false⟩

/-- A call of an application with nothing else going on. -/
def plainSituation : Situation := ⟨false, false, true, 0⟩

/-- The text of 9600 baud, eight data bits, no parity and one stop bit. -/
def plainAttr : List Byte := [0x39, 0x36, 0x30, 0x30, 0x2c, 0x38, 0x2c, 0x6e, 0x2c, 0x31]

/-- **A channel loses its UART**: on an S900 opening BT for the first time takes UART 3 from the
WIFI channel that is open. -/
theorem bt_takes_wifi :
    ¬ Meets (portStep s900) (Refuses s900) (sCommInit s900)
      [.open plainSituation (.uart .wifi) plainAttr,
        .open plainSituation (.uart .bt) plainAttr] := by
  rintro ⟨-, refuses, -⟩
  have occupied : Occupied s900 .bt (portStep s900 (sCommInit s900)
      (.open plainSituation (.uart .wifi) plainAttr)) :=
    ⟨3, .wifi, by decide, by decide, by decide, by decide⟩
  obtain ⟨-, code⟩ := refuses (by decide) occupied
  exact absurd (code ⟨by decide, by decide, by decide⟩) (by decide)

end PosFirmware.Comm
