import PosFirmware.IpStack.Dhcp

/-! # One round of a DHCP scan

What a round does at an option of the grammar (`dhcpRound_passes`), what it has passed
when it goes on (`dhcpRound_running`), why it ends (`dhcpRound_returned`), and that it
moves the cursor (`dhcpRound_advances`).
-/

namespace PosFirmware.IpStack

open PosFirmware.Foundation

variable {ρ : Type}

variable {rule : Byte → OptionRule ρ} {mem : Nat → Byte} {len : Nat} {s after : DhcpScan ρ}

/-! ## Cases away from the end -/

theorem optionsMove_ok {endp step : Nat} {s : DhcpScan ρ} (inside : s.options + step < endp) :
    optionsMove endp step s = .ok { s with options := s.options + step } := if_neg (by omega)

theorem optionsByteCheck_eq {endp : Nat} (value : Byte) (near : s.options + 3 < endp) :
    optionsByteCheck mem endp value s =
      if mem (s.options + 1) ≠ 1 then
        .error ⟨s.options + 1, (s.options + 1) :: s.reads, s.found⟩
      else if mem (s.options + 2) ≠ value then
        .error ⟨s.options + 2, (s.options + 2) :: (s.options + 1) :: s.reads, s.found⟩
      else .ok ⟨s.options + 3, (s.options + 2) :: (s.options + 1) :: s.reads, s.found⟩ := by
  unfold optionsByteCheck
  rw [optionsMove_ok (by omega)]
  change (if mem (s.options + 1) ≠ 1 then _ else _) = _
  split
  · rfl
  · rw [optionsMove_ok (by change s.options + 1 + 1 < endp; omega)]
    change (if mem (s.options + 2) ≠ value then _ else _) = _
    split
    · rfl
    · rw [optionsMove_ok (by change s.options + 1 + 1 + 1 < endp; omega)]
      rfl

/-- The offsets of the four bytes copied after a length, and of the length. -/
def longReads (p : Nat) : List Nat := [p + 5, p + 4, p + 3, p + 2, p + 1]

theorem optionsGetLong_eq {endp : Nat} (assign : BitVec 32 → ρ → ρ)
    (near : s.options + 6 < endp) :
    optionsGetLong mem endp assign s =
      if mem (s.options + 1) ≠ 4 then
        .error ⟨s.options + 1, (s.options + 1) :: s.reads, s.found⟩
      else .ok ⟨s.options + 6, longReads s.options ++ s.reads,
        assign (ntohlAt mem (s.options + 2)) s.found⟩ := by
  unfold optionsGetLong
  rw [optionsMove_ok (by omega)]
  change (if mem (s.options + 1) ≠ 4 then _ else _) = _
  split
  · rfl
  · rw [optionsMove_ok (by change s.options + 1 + 1 < endp; omega)]
    exact optionsMove_ok (by change s.options + 1 + 1 + 4 < endp; omega)

theorem moveLongs_eq {endp n : Nat} (assign : BitVec 32 → ρ → ρ) (near : s.options + 2 < endp) :
    (do
      let s ← optionsMove endp 1 ({ s with
        options := s.options + 1, reads := (s.options + 1) :: s.reads } : DhcpScan ρ)
      let s := s.copy 0
      optionsMove endp n { s with found := assign (ntohlAt mem s.options) s.found }) =
      if s.options + 2 + n ≥ endp then
        .error ⟨s.options + 2, longReads s.options ++ s.reads,
          assign (ntohlAt mem (s.options + 2)) s.found⟩
      else .ok ⟨s.options + 2 + n, longReads s.options ++ s.reads,
        assign (ntohlAt mem (s.options + 2)) s.found⟩ := by
  rw [optionsMove_ok (by change s.options + 1 + 1 < endp; omega)]
  rfl

theorem optionsGetLongs_eq {endp : Nat} (assign : BitVec 32 → ρ → ρ)
    (near : s.options + 2 < endp) :
    optionsGetLongs mem endp assign s =
      if (mem (s.options + 1)).toNat = 0 ∨ (mem (s.options + 1)).toNat % 4 ≠ 0 then
        .error ⟨s.options + 1, (s.options + 1) :: s.reads, s.found⟩
      else if s.options + 2 + (mem (s.options + 1)).toNat ≥ endp then
        .error ⟨s.options + 2, longReads s.options ++ s.reads,
          assign (ntohlAt mem (s.options + 2)) s.found⟩
      else .ok ⟨s.options + 2 + (mem (s.options + 1)).toNat, longReads s.options ++ s.reads,
        assign (ntohlAt mem (s.options + 2)) s.found⟩ := by
  unfold optionsGetLongs
  rw [optionsMove_ok (by omega)]
  change (if (mem (s.options + 1)).toNat = 0 ∨ (mem (s.options + 1)).toNat % 4 ≠ 0
    then _ else _) = _
  split
  · rfl
  · exact moveLongs_eq assign near

theorem optionsGetDns_eq {endp : Nat} (assign : BitVec 32 → ρ → ρ)
    (near : s.options + 2 < endp) :
    optionsGetDns mem endp assign s =
      if (mem (s.options + 1)).toNat % 4 ≠ 0 then
        .error ⟨s.options + 1, (s.options + 1) :: s.reads, s.found⟩
      else if s.options + 2 + (mem (s.options + 1)).toNat ≥ endp then
        .error ⟨s.options + 2, longReads s.options ++ s.reads,
          assign (ntohlAt mem (s.options + 2)) s.found⟩
      else .ok ⟨s.options + 2 + (mem (s.options + 1)).toNat, longReads s.options ++ s.reads,
        assign (ntohlAt mem (s.options + 2)) s.found⟩ := by
  unfold optionsGetDns
  rw [optionsMove_ok (by omega)]
  change (if (mem (s.options + 1)).toNat % 4 ≠ 0 then _ else _) = _
  split
  · rfl
  · exact moveLongs_eq assign near

theorem dhcpRound_eq {endp : Nat} (inside : s.options < endp) :
    dhcpRound rule mem endp s =
      if mem s.options = DHCP_OPTION_END then .returned 0 (s.look 0)
      else
        match optionsCase mem endp (s.look 0) (rule (mem s.options)) with
        | .ok s => .running s
        | .error s => .returned 1 s := if_pos inside

theorem option_bytes {p : Nat} {tag : Byte} {value : List Byte}
    (bytes : slice mem p (value.length + 2) = (DhcpItem.option tag value).encode)
    (short : value.length < 256) :
    mem p = tag ∧ (mem (p + 1)).toNat = value.length ∧
      slice mem (p + 2) value.length = value := by
  have read (i : Nat) (below : i < value.length + 2) :
      (tag :: BitVec.ofNat 8 value.length :: value)[i]? = some (mem (p + i)) := by
    rw [← slice_getElem? below, bytes]
    rfl
  refine ⟨(Option.some.inj (read 0 (by omega))).symm, ?_, List.ext_getElem? fun i => ?_⟩
  · rw [← Option.some.inj (read 1 (by omega)), BitVec.toNat_ofNat, Nat.mod_eq_of_lt short]
  · by_cases below : i < value.length
    · have at' := read (i + 2) (by omega)
      rw [slice_getElem? below, Nat.add_assoc, Nat.add_comm 2 i, ← at']
      rfl
    · rw [List.getElem?_eq_none (by rw [slice_length]; omega), List.getElem?_eq_none (by omega)]

theorem ntohlOf_value {p : Nat} {value : List Byte}
    (bytes : slice mem p value.length = value) (long : 4 ≤ value.length) :
    ntohlOf value = ntohlAt mem p := by
  have read (i : Nat) (below : i < value.length) : value.getD i 0 = mem (p + i) := by
    rw [List.getD_eq_getElem?_getD]
    conv_lhs => rw [← bytes]
    rw [slice_getElem? below]
    rfl
  simp only [ntohlOf, ntohlAt]
  rw [read 0 (by omega), read (0 + 1) (by omega), read (0 + 2) (by omega),
    read (0 + 3) (by omega)]
  rfl

/-- A round passes an option of the grammar that lies in the packet with a byte after
it. -/
theorem dhcpRound_passes {tag : Byte} {value : List Byte}
    (plain : (DhcpItem.option tag value).Plain rule)
    (bytes : slice mem s.options (value.length + 2) = (DhcpItem.option tag value).encode)
    (inside : s.options + (value.length + 2) < len) (before : ∀ k ∈ s.reads, k < len) :
    ∃ reads, dhcpRound rule mem (OPTIONS + len) s =
        .running ⟨s.options + (value.length + 2), reads,
          takeItem rule s.found (.option tag value)⟩ ∧
      ∀ k ∈ reads, k < len := by
  obtain ⟨⟨notPad, notEnd, short, lengths⟩, wantedOnly⟩ := plain
  obtain ⟨tagged, length, values⟩ := option_bytes bytes short
  have wide : OPTIONS = 240 := rfl
  rw [dhcpRound_eq (by omega), tagged, if_neg notEnd]
  cases case' : rule tag with
  | byteCheck wanted seen =>
      obtain rfl := wantedOnly wanted seen case'
      have one : mem (s.options + 1) = 1 := BitVec.eq_of_toNat_eq (by rw [length]; rfl)
      have same : mem (s.options + 2) = wanted := by simpa [slice] using values
      rw [optionsCase, optionsByteCheck_eq _ (by change s.options + 3 < _; omega)]
      refine ⟨(s.options + 2) :: (s.options + 1) :: s.options :: s.reads, ?_, ?_⟩
      · simp [DhcpScan.look, one, same, takeItem, case', Except.map]
      · simp only [List.length_singleton] at inside
        simp only [List.forall_mem_cons]
        exact ⟨by omega, by omega, by omega, before⟩
  | long assign =>
      rw [case'] at lengths
      have four : value.length = 4 := lengths
      have lengthByte : mem (s.options + 1) = 4 :=
        BitVec.eq_of_toNat_eq (by rw [length, four]; rfl)
      rw [optionsCase, optionsGetLong_eq _ (by change s.options + 6 < _; omega)]
      refine ⟨longReads s.options ++ s.options :: s.reads, ?_, ?_⟩
      · simp [DhcpScan.look, lengthByte, takeItem, case', four, ntohlOf_value values four.ge]
      · simp only [longReads, List.cons_append, List.nil_append, List.forall_mem_cons]
        exact ⟨by omega, by omega, by omega, by omega, by omega, by omega, before⟩
  | longs assign =>
      rw [case'] at lengths
      obtain ⟨some', whole⟩ : value.length ≠ 0 ∧ value.length % 4 = 0 := lengths
      rw [optionsCase, optionsGetLongs_eq _ (by change s.options + 2 < _; omega)]
      refine ⟨longReads s.options ++ s.options :: s.reads, ?_, ?_⟩
      · have fits : ¬ s.options + 2 + value.length ≥ OPTIONS + len := by omega
        simp [DhcpScan.look, length, some', whole, fits, takeItem, case',
          ntohlOf_value values (by omega : 4 ≤ value.length)]
        omega
      · simp only [longReads, List.cons_append, List.nil_append, List.forall_mem_cons]
        exact ⟨by omega, by omega, by omega, by omega, by omega, by omega, before⟩
  | dns assign =>
      rw [case'] at lengths
      obtain ⟨some', whole⟩ : value.length ≠ 0 ∧ value.length % 4 = 0 := lengths
      rw [optionsCase, optionsGetDns_eq _ (by change s.options + 2 < _; omega)]
      refine ⟨longReads s.options ++ s.options :: s.reads, ?_, ?_⟩
      · have fits : ¬ s.options + 2 + value.length ≥ OPTIONS + len := by omega
        simp [DhcpScan.look, length, whole, fits, takeItem, case',
          ntohlOf_value values (by omega : 4 ≤ value.length)]
        omega
      · simp only [longReads, List.cons_append, List.nil_append, List.forall_mem_cons]
        exact ⟨by omega, by omega, by omega, by omega, by omega, by omega, before⟩
  | serverId assign =>
      rw [case'] at lengths
      have four : value.length = 4 := lengths
      refine ⟨[s.options + 5, s.options + 4, s.options + 3, s.options + 2, s.options] ++ s.reads,
        ?_, ?_⟩
      · simp [optionsCase, optionsGetServerId, DhcpScan.look, DhcpScan.copy, takeItem, case',
          four, ntohlOf_value values four.ge]
      · simp only [List.cons_append, List.nil_append, List.forall_mem_cons]
        exact ⟨by omega, by omega, by omega, by omega, by omega, before⟩
  | other =>
      refine ⟨[s.options + 1, s.options] ++ s.reads, ?_, ?_⟩
      · simp [optionsCase, optionsSkip, DhcpScan.look, length, takeItem, case']
        omega
      · simp only [List.cons_append, List.nil_append, List.forall_mem_cons]
        exact ⟨by omega, by omega, before⟩

/-! ## What a round read -/

/-- The state at the end of a part of a case. -/
def scanOf : Except (DhcpScan ρ) (DhcpScan ρ) → DhcpScan ρ
  | .ok s => s
  | .error s => s

theorem scanOf_bind_reads {k : Nat} {first : Except (DhcpScan ρ) (DhcpScan ρ)}
    {next : DhcpScan ρ → Except (DhcpScan ρ) (DhcpScan ρ)} (before : k ∈ (scanOf first).reads)
    (keeps : ∀ s, k ∈ s.reads → k ∈ (scanOf (next s)).reads) :
    k ∈ (scanOf (first >>= next)).reads := by
  cases first with
  | ok s => exact keeps s before
  | error s => exact before

theorem optionsMove_reads {k endp step : Nat} (before : k ∈ s.reads) :
    k ∈ (scanOf (optionsMove endp step s)).reads := by
  unfold optionsMove
  split <;> exact before

theorem copy_reads {k j : Nat} (before : k ∈ s.reads) : k ∈ (s.copy j).reads := by
  simp [DhcpScan.copy, DhcpScan.look, before]

theorem optionsCase_reads {k endp : Nat} (option : OptionRule ρ) (before : k ∈ s.reads) :
    k ∈ (scanOf (optionsCase mem endp s option)).reads := by
  have look {s : DhcpScan ρ} (before : k ∈ s.reads) : k ∈ (s.look 0).reads :=
    List.mem_cons_of_mem _ before
  cases option with
  | byteCheck wanted seen =>
      have checked : k ∈ (scanOf (optionsByteCheck mem endp wanted s)).reads := by
        refine scanOf_bind_reads (optionsMove_reads before) fun s before => ?_
        dsimp only
        split
        · exact look before
        · refine scanOf_bind_reads (optionsMove_reads (look before)) fun s before => ?_
          split
          · exact look before
          · exact optionsMove_reads (look before)
      rw [optionsCase]
      cases result : optionsByteCheck mem endp wanted s <;>
        simpa [result, scanOf, Except.map] using checked
  | long assign =>
      refine scanOf_bind_reads (optionsMove_reads before) fun s before => ?_
      dsimp only
      split
      · exact look before
      · refine scanOf_bind_reads (optionsMove_reads (look before)) fun s before => ?_
        exact optionsMove_reads (copy_reads before)
  | longs assign =>
      refine scanOf_bind_reads (optionsMove_reads before) fun s before => ?_
      dsimp only
      split
      · exact look before
      · refine scanOf_bind_reads (optionsMove_reads (look before)) fun s before => ?_
        exact optionsMove_reads (copy_reads before)
  | dns assign =>
      refine scanOf_bind_reads (optionsMove_reads before) fun s before => ?_
      dsimp only
      split
      · exact look before
      · refine scanOf_bind_reads (optionsMove_reads (look before)) fun s before => ?_
        exact optionsMove_reads (copy_reads before)
  | serverId assign => exact copy_reads before
  | other => exact List.mem_cons_of_mem _ before

theorem dhcpRound_reads {endp : Nat} (inside : s.options < endp) :
    s.options ∈ (dhcpRound rule mem endp s).state.reads := by
  have here : s.options ∈ (s.look 0).reads := List.mem_cons_self ..
  rw [dhcpRound_eq inside]
  split
  · exact here
  · have kept : s.options ∈ (scanOf (optionsCase mem endp (s.look 0)
        (rule (mem s.options)))).reads := optionsCase_reads _ here
    cases result : optionsCase mem endp (s.look 0) (rule (mem s.options)) <;>
      simpa [result, scanOf] using kept

/-- An option passed near the packet is passed by its length, or is a server identifier,
and is what the scan checks for. -/
theorem optionsCase_ok {option : OptionRule ρ} (near : s.options < len)
    (ok : optionsCase mem (OPTIONS + len) s option = .ok after) :
    (s.options + 1 ∈ after.reads ∨ s.options + 2 ∈ after.reads) ∧
      (after.options = s.options + (2 + (mem (s.options + 1)).toNat) ∨
        after.options = s.options + 6 ∧ ∃ assign, option = .serverId assign) ∧
      ∀ wanted seen, option = .byteCheck wanted seen →
        mem (s.options + 1) = 1 ∧ mem (s.options + 2) = wanted := by
  have wide : OPTIONS = 240 := rfl
  have lengthRead : s.options + 1 ∈ longReads s.options ++ s.reads := by simp [longReads]
  cases option with
  | byteCheck wanted seen =>
      rw [optionsCase, optionsByteCheck_eq _ (by omega)] at ok
      by_cases one : mem (s.options + 1) = 1
      · by_cases same : mem (s.options + 2) = wanted
        · rw [if_neg (not_not_intro one), if_neg (not_not_intro same)] at ok
          cases ok
          refine ⟨.inl (by simp), .inl (by rw [one]; rfl), ?_⟩
          rintro _ _ ⟨rfl, rfl⟩
          exact ⟨one, same⟩
        · rw [if_neg (not_not_intro one), if_pos same] at ok
          cases ok
      · rw [if_pos one] at ok
        cases ok
  | long assign =>
      rw [optionsCase, optionsGetLong_eq _ (by omega)] at ok
      by_cases four : mem (s.options + 1) = 4
      · rw [if_neg (not_not_intro four)] at ok
        cases ok
        exact ⟨.inl lengthRead, .inl (by rw [four]; rfl), nofun⟩
      · rw [if_pos four] at ok
        cases ok
  | longs assign =>
      rw [optionsCase, optionsGetLongs_eq _ (by omega)] at ok
      split at ok
      · cases ok
      · split at ok
        · cases ok
        · cases ok
          exact ⟨.inl lengthRead, .inl (Nat.add_assoc ..), nofun⟩
  | dns assign =>
      rw [optionsCase, optionsGetDns_eq _ (by omega)] at ok
      split at ok
      · cases ok
      · split at ok
        · cases ok
        · cases ok
          exact ⟨.inl lengthRead, .inl (Nat.add_assoc ..), nofun⟩
  | serverId assign =>
      cases ok
      exact ⟨.inr (by simp [DhcpScan.copy, DhcpScan.look]), .inr ⟨rfl, assign, rfl⟩, nofun⟩
  | other =>
      cases ok
      refine ⟨.inl (by simp [DhcpScan.look]), .inl ?_, nofun⟩
      change s.options + 1 + ((mem (s.options + 1)).toNat + 1) = _
      omega

/-- An option at which a scan gives up, reading inside the packet, is one that it
refuses. -/
theorem optionsCase_error {option : OptionRule ρ} (near : s.options < len)
    (error : optionsCase mem (OPTIONS + len) s option = .error after)
    (within : ∀ k ∈ after.reads, k < len) :
    s.options + 1 < len ∧
      Refuses option (mem (s.options + 1)).toNat
        (slice mem (s.options + 2) (len - (s.options + 2))) := by
  have wide : OPTIONS = 240 := rfl
  cases option with
  | byteCheck wanted seen =>
      rw [optionsCase, optionsByteCheck_eq _ (by omega)] at error
      by_cases one : mem (s.options + 1) = 1
      · by_cases same : mem (s.options + 2) = wanted
        · rw [if_neg (not_not_intro one), if_neg (not_not_intro same)] at error
          cases error
        · rw [if_neg (not_not_intro one), if_pos same] at error
          cases error
          have value : s.options + 2 < len := within _ (List.mem_cons_self ..)
          refine ⟨by omega, .inr ⟨mem (s.options + 2),
            slice mem (s.options + 3) (len - (s.options + 3)), ?_, same⟩⟩
          rw [show len - (s.options + 2) = len - (s.options + 3) + 1 by omega]
          exact slice_succ ..
      · rw [if_pos one] at error
        cases error
        refine ⟨within _ (List.mem_cons_self ..), .inl fun length => one ?_⟩
        exact BitVec.eq_of_toNat_eq length
  | long assign =>
      rw [optionsCase, optionsGetLong_eq _ (by omega)] at error
      by_cases four : mem (s.options + 1) = 4
      · rw [if_neg (not_not_intro four)] at error
        cases error
      · rw [if_pos four] at error
        cases error
        refine ⟨within _ (List.mem_cons_self ..), fun length => four ?_⟩
        exact BitVec.eq_of_toNat_eq length
  | longs assign =>
      rw [optionsCase, optionsGetLongs_eq _ (by omega)] at error
      split at error
      next bad =>
        cases error
        exact ⟨within _ (List.mem_cons_self ..), bad.imp_right .inl⟩
      next =>
        split at error
        next far =>
          cases error
          have last : s.options + 5 < len := within _ (List.mem_cons_self ..)
          exact ⟨by omega, .inr (.inr ⟨by rw [slice_length]; omega, by
            rw [slice_length]; omega⟩)⟩
        next => cases error
  | dns assign =>
      rw [optionsCase, optionsGetDns_eq _ (by omega)] at error
      split at error
      next bad =>
        cases error
        exact ⟨within _ (List.mem_cons_self ..), .inl bad⟩
      next =>
        split at error
        next far =>
          cases error
          have last : s.options + 5 < len := within _ (List.mem_cons_self ..)
          exact ⟨by omega, .inr ⟨by rw [slice_length]; omega, by rw [slice_length]; omega⟩⟩
        next => cases error
  | serverId assign => cases error
  | other => cases error

theorem optionsCase_refuses {option : OptionRule ρ} {tail : List Byte}
    (near : s.options + 1 < len)
    (after : slice mem (s.options + 2) (len - (s.options + 2)) = tail)
    (refuses : Refuses option (mem (s.options + 1)).toNat tail) (before : ∀ k ∈ s.reads, k < len) :
    ∃ end', optionsCase mem (OPTIONS + len) s option = .error end' ∧ ∀ k ∈ end'.reads, k < len := by
  have wide : OPTIONS = 240 := rfl
  have size := congrArg List.length after
  rw [slice_length] at size
  have first : ∀ k ∈ (s.options + 1) :: s.reads, k < len := by
    simp only [List.forall_mem_cons]
    exact ⟨near, before⟩
  have longs (four : 4 ≤ tail.length) : ∀ k ∈ longReads s.options ++ s.reads, k < len := by
    simp only [longReads, List.cons_append, List.nil_append, List.forall_mem_cons]
    exact ⟨by omega, by omega, by omega, by omega, by omega, before⟩
  cases option with
  | byteCheck wanted seen =>
      rw [optionsCase, optionsByteCheck_eq _ (by omega)]
      by_cases one : mem (s.options + 1) = 1
      · obtain long | ⟨value, more, rfl, other⟩ := refuses
        · exact absurd (congrArg BitVec.toNat one) long
        · have more' : len - (s.options + 2) = more.length + 1 := by simpa using size
          rw [more', slice_succ] at after
          obtain ⟨same, -⟩ := List.cons.inj after
          rw [if_neg (not_not_intro one), if_pos (same ▸ other)]
          refine ⟨_, rfl, ?_⟩
          simp only [List.forall_mem_cons]
          exact ⟨by omega, near, before⟩
      · rw [if_pos one]
        exact ⟨_, rfl, first⟩
  | long assign =>
      rw [optionsCase, optionsGetLong_eq _ (by omega),
        if_pos fun four => refuses (by rw [four]; rfl)]
      exact ⟨_, rfl, first⟩
  | longs assign =>
      rw [optionsCase, optionsGetLongs_eq _ (by omega)]
      split
      next => exact ⟨_, rfl, first⟩
      next good =>
        obtain zero | part | ⟨four, far⟩ := refuses
        · exact absurd (.inl zero) good
        · exact absurd (.inr part) good
        · rw [if_pos (by omega)]
          exact ⟨_, rfl, longs four⟩
  | dns assign =>
      rw [optionsCase, optionsGetDns_eq _ (by omega)]
      split
      next => exact ⟨_, rfl, first⟩
      next good =>
        obtain part | ⟨four, far⟩ := refuses
        · exact absurd part good
        · rw [if_pos (by omega)]
          exact ⟨_, rfl, longs four⟩
  | serverId assign => exact refuses.elim
  | other => exact refuses.elim

/-- A round that goes on inside the packet passed an option by its length, or a server
identifier, and found what it checks for. -/
theorem dhcpRound_running (went : dhcpRound rule mem (OPTIONS + len) s = .running after)
    (within : ∀ k ∈ after.reads, k < len) :
    s.options + 1 < len ∧ mem s.options ≠ DHCP_OPTION_END ∧
      (after.options = s.options + (2 + (mem (s.options + 1)).toNat) ∨
        after.options = s.options + 6 ∧ ∃ assign, rule (mem s.options) = .serverId assign) ∧
      ∀ wanted seen, rule (mem s.options) = .byteCheck wanted seen →
        mem (s.options + 1) = 1 ∧ mem (s.options + 2) = wanted := by
  have bound : s.options < OPTIONS + len := by
    by_contra out
    rw [dhcpRound, if_neg out] at went
    cases went
  have here : s.options < len := by
    have read : s.options ∈ (dhcpRound rule mem (OPTIONS + len) s).state.reads :=
      dhcpRound_reads bound
    rw [went] at read
    exact within _ read
  rw [dhcpRound_eq bound] at went
  split at went
  · cases went
  next notEnd =>
    split at went
    next after' ok =>
      cases went
      have passed := optionsCase_ok (s := s.look 0) here ok
      refine ⟨?_, notEnd, passed.2⟩
      obtain read | read := passed.1
      · exact within _ read
      · exact Nat.lt_of_succ_lt (within _ read)
    next => cases went

theorem dhcpRound_returned {code : Int}
    (ended : dhcpRound rule mem (OPTIONS + len) s = .returned code after)
    (within : ∀ k ∈ after.reads, k < len) :
    (code = 0 ∧ after.options = s.options ∧
      (s.options < len → mem s.options = DHCP_OPTION_END)) ∨
    (code = 1 ∧ s.options + 1 < len ∧ Refuses (rule (mem s.options)) (mem (s.options + 1)).toNat
      (slice mem (s.options + 2) (len - (s.options + 2)))) := by
  by_cases bound : s.options < OPTIONS + len
  · have here : s.options < len := by
      have read : s.options ∈ (dhcpRound rule mem (OPTIONS + len) s).state.reads :=
      dhcpRound_reads bound
      rw [ended] at read
      exact within _ read
    rw [dhcpRound_eq bound] at ended
    split at ended
    next last =>
      cases ended
      exact .inl ⟨rfl, rfl, fun _ => last⟩
    next =>
      split at ended
      next => cases ended
      next after' error =>
        cases ended
        exact .inr ⟨rfl, optionsCase_error (s := s.look 0) here error within⟩
  · rw [dhcpRound, if_neg bound] at ended
    cases ended
    exact .inl ⟨rfl, rfl, fun inside => absurd inside (by omega)⟩

/-! ## The scan ends -/

theorem bind_ok {first : Except (DhcpScan ρ) (DhcpScan ρ)}
    {next : DhcpScan ρ → Except (DhcpScan ρ) (DhcpScan ρ)} (ok : (first >>= next) = .ok after) :
    ∃ s, first = .ok s ∧ next s = .ok after := by
  cases first with
  | ok s => exact ⟨s, rfl, ok⟩
  | error s => cases ok

theorem optionsMove_options {endp step : Nat} (ok : optionsMove endp step s = .ok after) :
    after.options = s.options + step := by
  unfold optionsMove at ok
  split at ok
  · cases ok
  · cases ok
    rfl

/-- Every option that is passed moves the cursor. -/
theorem optionsCase_advances {endp : Nat} {option : OptionRule ρ}
    (ok : optionsCase mem endp s option = .ok after) : s.options < after.options := by
  cases option with
  | byteCheck wanted seen =>
      rw [optionsCase] at ok
      cases checked : optionsByteCheck mem endp wanted s with
      | error end' =>
          rw [checked] at ok
          cases ok
      | ok end' =>
          rw [checked] at ok
          cases ok
          obtain ⟨first, moved, rest⟩ := bind_ok checked
          have one := optionsMove_options moved
          dsimp only at rest
          split at rest
          · cases rest
          · obtain ⟨second, moved', rest⟩ := bind_ok rest
            have two := optionsMove_options moved'
            split at rest
            · cases rest
            · have three := optionsMove_options rest
              change second.options = first.options + 1 at two
              change end'.options = second.options + 1 at three
              change s.options < end'.options
              omega
  | long assign =>
      obtain ⟨first, moved, rest⟩ := bind_ok ok
      have one := optionsMove_options moved
      dsimp only at rest
      split at rest
      · cases rest
      · obtain ⟨second, moved', rest⟩ := bind_ok rest
        have two := optionsMove_options moved'
        have three := optionsMove_options rest
        change second.options = first.options + 1 at two
        change after.options = second.options + 4 at three
        omega
  | longs assign =>
      obtain ⟨first, moved, rest⟩ := bind_ok ok
      have one := optionsMove_options moved
      dsimp only at rest
      split at rest
      · cases rest
      · obtain ⟨second, moved', rest⟩ := bind_ok rest
        have two := optionsMove_options moved'
        have three := optionsMove_options rest
        change second.options = first.options + 1 at two
        change after.options = second.options + _ at three
        omega
  | dns assign =>
      obtain ⟨first, moved, rest⟩ := bind_ok ok
      have one := optionsMove_options moved
      dsimp only at rest
      split at rest
      · cases rest
      · obtain ⟨second, moved', rest⟩ := bind_ok rest
        have two := optionsMove_options moved'
        have three := optionsMove_options rest
        change second.options = first.options + 1 at two
        change after.options = second.options + _ at three
        omega
  | serverId assign =>
      cases ok
      exact Nat.lt_add_of_pos_right (by decide)
  | other =>
      cases ok
      change s.options < s.options + 1 + _
      omega

theorem dhcpRound_advances {endp : Nat} (went : dhcpRound rule mem endp s = .running after) :
    s.options < endp ∧ s.options < after.options := by
  by_cases bound : s.options < endp
  · refine ⟨bound, ?_⟩
    rw [dhcpRound_eq bound] at went
    split at went
    · cases went
    · split at went
      next after' ok =>
        cases went
        exact optionsCase_advances (s := s.look 0) ok
      next => cases went
  · rw [dhcpRound, if_neg bound] at went
    cases went

end PosFirmware.IpStack
