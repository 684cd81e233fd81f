import PosFirmware.IpStack.DhcpRound

/-! # The options of a DHCP reply

The two scans of the client follow the grammar exactly when no PAD comes before END, END
comes before the packet ends, and every option they look for has its length
(`dhcpOptions_iff`): they step over a PAD as if a length followed it, and their end lies
240 bytes behind the packet (`dhcpOptions_pad`).
-/

namespace PosFirmware.IpStack

open PosFirmware.Foundation

variable {ρ : Type}

/-! ## The walk over a plain field -/

section Walk

variable {rule : Byte → OptionRule ρ} {mem : Nat → Byte} {len : Nat} {start : ρ}

theorem dhcpScan_succ (n : Nat) :
    dhcpScan rule mem len start (n + 1) =
      (dhcpScan rule mem len start n).next (dhcpRound rule mem (OPTIONS + len)) := rfl

/-- **Every scan ends.** On every packet a scan returns after at most one round for each
of its bytes and one more. -/
theorem dhcpScan_returns (rule : Byte → OptionRule ρ) (mem : Nat → Byte) (len : Nat) (start : ρ) :
    ∃ code s, dhcpScan rule mem len start (len + 1) = .returned code s := by
  have far (n : Nat) {s : DhcpScan ρ} (running : dhcpScan rule mem len start n = .running s) :
      OPTIONS + n ≤ s.options := by
    induction n generalizing s with
    | zero =>
        cases running
        exact le_rfl
    | succ n past =>
        cases before : dhcpScan rule mem len start n with
        | returned code s' =>
            rw [dhcpScan_succ, before] at running
            cases running
        | running s' =>
            rw [dhcpScan_succ, before, Outcome.next_running] at running
            have moved := (dhcpRound_advances running).2
            have earlier := past before
            omega
  cases last : dhcpScan rule mem len start (len + 1) with
  | returned code s => exact ⟨code, s, rfl⟩
  | running s =>
      cases before : dhcpScan rule mem len start len with
      | returned code s' =>
          rw [dhcpScan_succ, before] at last
          cases last
      | running s' =>
          rw [dhcpScan_succ, before, Outcome.next_running] at last
          have bound := (dhcpRound_advances last).1
          have reached := far len before
          omega

private theorem field_split {items : List DhcpItem} {rest : List Byte}
    (field : optionField mem len = encodeItems items ++ rest) {k : Nat} (lt : k < items.length) :
    optionField mem len = encodeItems (items.take k) ++
      (items[k].encode ++ (encodeItems (items.drop (k + 1)) ++ rest)) := by
  have split : items = items.take k ++ items[k] :: items.drop (k + 1) := by
    rw [List.getElem_cons_drop, List.take_append_drop]
  rw [field]
  conv_lhs => rw [split]
  rw [encodeItems_append, encodeItems_cons, List.append_assoc, List.append_assoc]

private theorem scan_plain (start : ρ) {items : List DhcpItem} {rest : List Byte}
    (plain : ∀ item ∈ items, item.Plain rule)
    (field : optionField mem len = encodeItems items ++ rest) (more : rest ≠ []) {k : Nat}
    (le : k ≤ items.length) :
    ∃ reads, dhcpScan rule mem len start k =
        .running ⟨OPTIONS + (encodeItems (items.take k)).length, reads,
          (items.take k).foldl (takeItem rule) start⟩ ∧
      ∀ j ∈ reads, j < len := by
  have size := congrArg List.length field
  rw [optionField, slice_length, List.length_append] at size
  have some' := List.length_pos_iff.mpr more
  induction k with
  | zero => exact ⟨[], rfl, nofun⟩
  | succ k past =>
      obtain ⟨reads, reached, within⟩ := past (by omega)
      have item := plain items[k] (List.getElem_mem ..)
      have next : items.take (k + 1) = items.take k ++ [items[k]] := by simp
      have whole := field_split field (show k < items.length from le)
      have bytes := slice_middle whole
      have far := congrArg List.length whole
      simp only [optionField, slice_length, List.length_append] at far
      generalize items[k] = passed at *
      cases passed with
      | pad => exact item.elim
      | option tag value =>
          have long : (DhcpItem.option tag value).encode.length = value.length + 2 := rfl
          rw [long] at bytes far
          obtain ⟨reads', round, within'⟩ := dhcpRound_passes
            (s := ⟨OPTIONS + (encodeItems (items.take k)).length, reads,
              (items.take k).foldl (takeItem rule) start⟩) item bytes (by
                change OPTIONS + _ + (value.length + 2) < len
                omega) within
          refine ⟨reads', ?_, within'⟩
          rw [dhcpScan_succ, reached, Outcome.next_running, round, next]
          simp [encodeItems, long, Nat.add_assoc]

/-- How a scan of a plain field ends: after the options, at END or at an option that it
refuses. -/
private structure PlainEnd (rule : Byte → OptionRule ρ) (mem : Nat → Byte) (len : Nat) (start : ρ)
    (items : List DhcpItem) (rest : List Byte) (code : Int) (final : DhcpScan ρ) : Prop where
  closed : code = if rest.head? = some DHCP_OPTION_END then 0 else 1
  ended : dhcpScan rule mem len start (items.length + 1) = .returned code final
  within : ∀ j ∈ final.reads, j < len
  last : OPTIONS + (encodeItems items).length < len
  notPad : mem (OPTIONS + (encodeItems items).length) ≠ DHCP_OPTION_PAD
  terminator : code = 0 → final.options = OPTIONS + (encodeItems items).length ∧
    mem final.options = DHCP_OPTION_END ∧ final.found = items.foldl (takeItem rule) start
  refused : code = 1 → ∀ sequence, OptionSequence rule (optionField mem len) sequence →
    ¬ Wanted rule sequence

private theorem plainEnd (start : ρ)
    (other : rule DHCP_OPTION_PAD = .other ∧ rule DHCP_OPTION_END = .other)
    {items : List DhcpItem} {rest : List Byte} (plain : ∀ item ∈ items, item.Plain rule)
    (field : optionField mem len = encodeItems items ++ rest)
    (close : (∃ tail, rest = DHCP_OPTION_END :: tail) ∨
      (∃ tag n tail, rest = tag :: n :: tail ∧ Refuses (rule tag) n.toNat tail) ∧
        ∀ sequence, OptionSequence rule (optionField mem len) sequence → ¬ Wanted rule sequence) :
    ∃ code final, PlainEnd rule mem len start items rest code final := by
  have more : rest ≠ [] := by
    obtain ⟨tail, rfl⟩ | ⟨⟨tag, n, tail, rfl, -⟩, -⟩ := close <;> exact List.cons_ne_nil _ _
  have size := congrArg List.length field
  rw [optionField, slice_length, List.length_append] at size
  have some' := List.length_pos_iff.mpr more
  obtain ⟨reads, reached, within⟩ :=
    scan_plain start plain field more le_rfl
  rw [List.take_length] at reached
  have after := slice_middle (field.trans (by rw [List.append_nil] : _ = _ ++ (rest ++ [])))
  have last : OPTIONS + (encodeItems items).length < len := by omega
  have atLast : ((⟨OPTIONS + (encodeItems items).length, reads,
      items.foldl (takeItem rule) start⟩ : DhcpScan ρ).look 0).reads.all (· < len) := by
    simpa [DhcpScan.look, last] using within
  have within' := fun j member => of_decide_eq_true (List.all_eq_true.mp atLast j member)
  have bound : OPTIONS + (encodeItems items).length < OPTIONS + len := by omega
  generalize position : OPTIONS + (encodeItems items).length = p at *
  obtain ⟨tail, rfl⟩ | ⟨⟨tag, n, tail, rfl, refuses⟩, unwanted⟩ := close
  · rw [List.length_cons, slice_succ] at after
    have here := (List.cons.inj after).1
    refine ⟨0, DhcpScan.look ⟨p, reads, _⟩ 0, by simp, ?_, within', position ▸ last,
      position ▸ here ▸ by decide, fun _ => ⟨position.symm, here, rfl⟩,
      fun one => absurd one (by decide)⟩
    rw [dhcpScan_succ, reached, Outcome.next_running, dhcpRound_eq bound, if_pos here]
  · rw [List.length_cons, List.length_cons, slice_succ, slice_succ] at after
    obtain ⟨here, after⟩ := List.cons.inj after
    obtain ⟨length, values⟩ := List.cons.inj after
    have tagged : tag ≠ DHCP_OPTION_PAD ∧ tag ≠ DHCP_OPTION_END := by
      constructor <;> rintro rfl
      · rw [other.1] at refuses
        exact refuses
      · rw [other.2] at refuses
        exact refuses
    simp only [List.length_cons] at size
    have rest : slice mem (p + 2) (len - (p + 2)) = tail := by
      rw [show len - (p + 2) = tail.length by omega]
      exact values
    obtain ⟨final, error, inside⟩ := optionsCase_refuses
      (s := DhcpScan.look ⟨p, reads, items.foldl (takeItem rule) start⟩ 0)
      (show p + 1 < len by omega) rest (by
        change Refuses (rule tag) (mem (p + 1)).toNat tail
        rw [length]
        exact refuses) within'
    refine ⟨1, final, by simp [tagged.2], ?_, inside, position ▸ last,
      position ▸ here ▸ tagged.1, fun zero => absurd zero (by decide), fun _ => unwanted⟩
    rw [dhcpScan_succ, reached, Outcome.next_running, dhcpRound_eq bound]
    simp only [here, tagged.2, if_false, error]

private theorem slice_items {items : List DhcpItem} {rest : List Byte}
    (field : optionField mem len = encodeItems items ++ rest) (k : Nat) :
    slice mem OPTIONS (encodeItems (items.take k)).length = encodeItems (items.take k) := by
  have whole : optionField mem len =
      [] ++ (encodeItems (items.take k) ++ (encodeItems (items.drop k) ++ rest)) := by
    rw [List.nil_append, ← List.append_assoc, ← encodeItems_append, List.take_append_drop, field]
  exact slice_middle whole

private theorem notPad_of_plain {items : List DhcpItem} {rest : List Byte}
    (plain : ∀ item ∈ items, item.Plain rule)
    (field : optionField mem len = encodeItems items ++ rest) {k : Nat} (lt : k < items.length) :
    mem (OPTIONS + (encodeItems (items.take k)).length) ≠ DHCP_OPTION_PAD := by
  have item := plain items[k] (List.getElem_mem ..)
  have whole := field_split field lt
  have bytes := slice_middle whole
  generalize items[k] = passed at *
  cases passed with
  | pad => exact item.elim
  | option tag value =>
      rw [(option_bytes bytes item.1.2.2.1).1]
      exact item.1.1

/-- The scan of a plain field reads it by the grammar. -/
private theorem readsGrammar_of_plain
    (other : rule DHCP_OPTION_PAD = .other ∧ rule DHCP_OPTION_END = .other)
    (plain : FieldPlain rule (optionField mem len)) : ReadsGrammar rule mem len start := by
  obtain ⟨items, rest, passed, field, close⟩ := plain
  have more : rest ≠ [] := by
    obtain ⟨tail, rfl⟩ | ⟨⟨tag, n, tail, rfl, -⟩, -⟩ := close <;> exact List.cons_ne_nil _ _
  obtain ⟨code, final, ending⟩ := plainEnd start other passed field close
  have going {n : Nat} (le : n ≤ items.length) := scan_plain start passed field more le
  have gone {n : Nat} (late : ¬ n ≤ items.length) :
      dhcpScan rule mem len start n = .returned code final :=
    Outcome.run_of_returned ending.ended (by omega)
  have valid (n : Nat) : ∀ item ∈ items.take n, item.Valid rule := fun item member =>
    (passed item (List.mem_of_mem_take member)).valid
  refine ⟨⟨_, _, _, ending.ended⟩, fun n => ?_, fun n s running inside pad => ?_,
    fun n s returned => ?_, fun n s reached => ?_, fun n s returned => ?_⟩
  · by_cases le : n ≤ items.length
    · obtain ⟨reads, running, within⟩ := going le
      rw [running]
      exact within
    · rw [gone le]
      exact ending.within
  · by_cases le : n ≤ items.length
    · obtain ⟨reads, known, -⟩ := going le
      obtain rfl := Outcome.running.inj (running.symm.trans known)
      obtain lt | rfl := Nat.lt_or_eq_of_le le
      · exact absurd pad (notPad_of_plain passed field lt)
      · rw [List.take_length] at pad
        exact absurd pad ending.notPad
    · rw [gone le] at running
      cases running
  · by_cases le : n ≤ items.length
    · obtain ⟨reads, known, -⟩ := going le
      rw [known] at returned
      cases returned
    · rw [gone le] at returned
      cases returned
      obtain ⟨position, here, -⟩ := ending.terminator rfl
      exact ⟨position ▸ ending.last, here⟩
  · by_cases le : n ≤ items.length
    · obtain ⟨reads, known, -⟩ := going le
      rw [known] at reached
      obtain running | returned := reached
      · cases running
        refine ⟨items.take n, valid n, ?_, rfl⟩
        rw [Nat.add_sub_cancel_left]
        exact slice_items field n
      · cases returned
    · rw [gone le] at reached
      obtain running | returned := reached
      · cases running
      · cases returned
        obtain ⟨position, -, found⟩ := ending.terminator rfl
        refine ⟨items, fun item member => (passed item member).valid, ?_, found⟩
        rw [position, Nat.add_sub_cancel_left]
        have whole := slice_items field items.length
        rwa [List.take_length] at whole
  · by_cases le : n ≤ items.length
    · obtain ⟨reads, known, -⟩ := going le
      rw [known] at returned
      cases returned
    · rw [gone le] at returned
      cases returned
      exact ending.refused rfl

/-- A scan that reads by the grammar stands behind plain options as long as it goes on. -/
private theorem plain_of_running (reads : ReadsGrammar rule mem len start) (n : Nat)
    {s : DhcpScan ρ} (running : dhcpScan rule mem len start n = .running s) :
    ∃ items, (∀ item ∈ items, item.Plain rule) ∧
      s.options = OPTIONS + (encodeItems items).length ∧
      slice mem OPTIONS (encodeItems items).length = encodeItems items := by
  induction n generalizing s with
  | zero =>
      cases running
      exact ⟨[], nofun, rfl, rfl⟩
  | succ n past =>
      have round := running
      rw [dhcpScan_succ] at round
      cases before : dhcpScan rule mem len start n with
      | returned code s' =>
          rw [before] at round
          cases round
      | running s' =>
          rw [before, Outcome.next_running] at round
          obtain ⟨items, plain, position, bytes⟩ := past before
          have within := reads.inside (n + 1)
          rw [running] at within
          obtain ⟨near, notEnd, options, checked⟩ := dhcpRound_running round within
          have notPad : mem s'.options ≠ DHCP_OPTION_PAD := fun pad => by
            have one := reads.pad n s' before (by omega) pad
            rw [running] at one
            change s.options = s'.options + 1 at one
            omega
          obtain ⟨longer, valid, slices, -⟩ := reads.found (n + 1) s (.inl running)
          have distance : s.options - OPTIONS =
              (encodeItems items).length + (s.options - s'.options) := by omega
          rw [distance, slice_add, bytes, ← position] at slices
          obtain ⟨item, tail, rfl, rest⟩ := encodeItems_longer
            (fun item member => (plain item member).valid) valid slices.symm
            (List.ne_nil_of_length_pos (by rw [slice_length]; omega))
          have itemValid := valid item (List.mem_append_right _ (List.mem_cons_self ..))
          have itemBytes : slice mem s'.options item.encode.length = item.encode :=
            slice_middle (rest.trans (List.nil_append _).symm)
          cases item with
          | pad =>
              rw [show DhcpItem.pad.encode.length = 0 + 1 from rfl, slice_succ] at itemBytes
              exact absurd (List.cons.inj itemBytes).1 notPad
          | option tag value =>
              obtain ⟨tagged, length, values⟩ := option_bytes itemBytes itemValid.2.2.1
              rw [tagged] at options checked
              have passed : s.options = s'.options + (value.length + 2) := by
                obtain own | ⟨six, assign, serverId⟩ := options
                · omega
                · have lengths := itemValid.2.2.2
                  rw [serverId] at lengths
                  have four : value.length = 4 := lengths
                  omega
              have long : (DhcpItem.option tag value).encode.length = value.length + 2 := rfl
              refine ⟨items ++ [.option tag value], fun item member => ?_, ?_, ?_⟩
              · obtain earlier | last := List.mem_append.mp member
                · exact plain item earlier
                · obtain rfl := List.mem_singleton.mp last
                  refine ⟨itemValid, fun wanted seen check => ?_⟩
                  obtain ⟨one, same⟩ := checked wanted seen check
                  have single : value.length = 1 := by rw [← length, one]; rfl
                  rw [single] at values
                  simpa [slice, same] using values.symm
              · rw [passed, position, encodeItems_append, List.length_append,
                  encodeItems_cons, List.length_append, long]
                simp [encodeItems, Nat.add_assoc]
              · rw [encodeItems_append, List.length_append, slice_add, bytes, ← position]
                refine congrArg _ ?_
                simpa [encodeItems] using itemBytes

private theorem plain_of_readsGrammar (reads : ReadsGrammar rule mem len start) :
    FieldPlain rule (optionField mem len) := by
  obtain ⟨n, code, final, ended⟩ := reads.returns
  induction n with
  | zero => cases ended
  | succ n past =>
      cases before : dhcpScan rule mem len start n with
      | returned code' final' =>
          rw [dhcpScan_succ, before, Outcome.next_returned] at ended
          exact past (before.trans ended)
      | running s =>
          obtain ⟨items, plain, position, bytes⟩ := plain_of_running reads n before
          have round := ended
          rw [dhcpScan_succ, before, Outcome.next_running] at round
          have within := reads.inside (n + 1)
          rw [ended] at within
          have split (inside : s.options < len) : optionField mem len =
              encodeItems items ++ slice mem s.options (len - s.options) := by
            rw [optionField, show len - OPTIONS = (encodeItems items).length +
              (len - s.options) by omega, slice_add, bytes, ← position]
          obtain ⟨rfl, still, last⟩ | ⟨rfl, inside, refuses⟩ := dhcpRound_returned round within
          · obtain ⟨inside, here⟩ := reads.terminator (n + 1) final ended
            rw [still] at inside here
            refine ⟨items, _, plain, split inside, .inl ⟨slice mem (s.options + 1)
              (len - (s.options + 1)), ?_⟩⟩
            rw [show len - s.options = len - (s.options + 1) + 1 by omega, slice_succ, here]
          · refine ⟨items, _, plain, split (by omega), .inr ⟨⟨mem s.options,
              mem (s.options + 1), _, ?_, refuses⟩, reads.refused (n + 1) final ended⟩⟩
            rw [show len - s.options = len - (s.options + 2) + 1 + 1 by omega, slice_succ,
              slice_succ]

end Walk

/-! ## Results -/

/-- **The scans follow the grammar exactly on plain fields.** For every packet, the scan
of an OFFER, and that of an ACK, returns, reads only bytes of the packet, takes a PAD for
one byte and stops at END, finds what the options say and refuses no packet of its kind,
if and only if the option field is a row of options without PAD, each of its length, up
to END or up to an option for which the scan gives up a packet of another kind. -/
theorem dhcpOptions_iff (mem : Nat → Byte) (len : Nat) :
    (ReadsGrammar offerRule mem len (offerStart mem) ↔
      FieldPlain offerRule (optionField mem len)) ∧
    (ReadsGrammar ackRule mem len ackStart ↔
      FieldPlain ackRule (optionField mem len)) :=
  ⟨⟨plain_of_readsGrammar, readsGrammar_of_plain ⟨rfl, rfl⟩⟩,
    ⟨plain_of_readsGrammar, readsGrammar_of_plain ⟨rfl, rfl⟩⟩⟩

/-- What a scan by the grammar ends in: what the options up to END say, or a packet of another
kind. -/
theorem dhcpScan_of_readsGrammar {rule : Byte → OptionRule ρ} {mem : Nat → Byte} {len : Nat}
    {start : ρ} (other : rule DHCP_OPTION_PAD = .other ∧ rule DHCP_OPTION_END = .other)
    (reads : ReadsGrammar rule mem len start) :
    (∃ items s, OptionSequence rule (optionField mem len) items ∧
      dhcpScan rule mem len start (len + 1) = .returned 0 s ∧
        s.found = items.foldl (takeItem rule) start) ∨
    ((∃ s, dhcpScan rule mem len start (len + 1) = .returned 1 s) ∧
      ∀ items, OptionSequence rule (optionField mem len) items → ¬ Wanted rule items) := by
  obtain ⟨items, rest, passed, field, close⟩ := plain_of_readsGrammar reads
  obtain ⟨code, final, ending⟩ := plainEnd start other passed field close
  obtain ⟨code', s, ended⟩ := dhcpScan_returns rule mem len start
  obtain ⟨rfl, rfl⟩ : code = code' ∧ final = s := by
    have first := Outcome.run_of_returned ending.ended (Nat.le_max_left _ (len + 1))
    have second := Outcome.run_of_returned ended (Nat.le_max_right (items.length + 1) _)
    exact Outcome.returned.inj (first.symm.trans second)
  have closed := ending.closed
  split at closed
  next last =>
    obtain ⟨tail, rfl⟩ := List.head?_eq_some_iff.mp last
    obtain rfl := closed
    exact .inl ⟨items, final, ⟨fun item member => (passed item member).valid, tail, field⟩, ended,
      (ending.terminator rfl).2.2⟩
  next =>
    obtain rfl := closed
    exact .inr ⟨⟨final, ended⟩, ending.refused rfl⟩

/-- A header of zeros, and an option field. -/
def packetOf (field : List Byte) : Nat → Byte := blit (fun _ => 0) OPTIONS field

/-- An OFFER with a PAD before its options. -/
def paddedOffer : List Byte := [0, 53, 1, 2, 54, 4, 192, 168, 0, 1, 255]

/-- **A PAD takes the scan out of the packet.** The field is a PAD, the two options of an
OFFER and END; the scan takes the tag after the PAD for its length, and reads 44 bytes
behind the packet. -/
theorem dhcpOptions_pad :
    let mem := packetOf paddedOffer
    OptionSequence offerRule (optionField mem 251)
      [.pad, .option 53 [2], .option 54 [192, 168, 0, 1]] ∧
    295 ∈ (dhcpScan offerRule mem 251 (offerStart mem) 2).state.reads ∧
    ¬ ReadsGrammar offerRule mem 251 (offerStart mem) := by
  have outside : 295 ∈ (dhcpScan offerRule (packetOf paddedOffer) 251
      (offerStart (packetOf paddedOffer)) 2).state.reads := by decide +kernel
  refine ⟨⟨fun item member => ?_, [], by decide +kernel⟩, outside, fun reads => ?_⟩
  · simp only [List.mem_cons, List.not_mem_nil, or_false] at member
    obtain rfl | rfl | rfl := member
    · trivial
    · exact ⟨by decide, by decide, by decide, rfl⟩
    · exact ⟨by decide, by decide, by decide, rfl⟩
  · exact absurd (reads.inside 2 295 outside) (by decide)

end PosFirmware.IpStack
