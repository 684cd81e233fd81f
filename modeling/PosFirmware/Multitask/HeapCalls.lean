import PosFirmware.Multitask.Heap

/-! # Calls of the heap

A heap whose blocks tile the pool behind its head, the free ones in order and with no two that
touch (`HeapAt`). What `BSP_Malloc` does to one, and `BSP_Free`.
-/

namespace PosFirmware.Multitask

open PosFirmware.Foundation

/-- Blocks that tile the pool behind its head. -/
abbrev TilesPool (layout : HeapLayout) (blocks : List Block) : Prop :=
  Tiling (layout.base + BLOCK_HEADER) (layout.base + SYS_MEMORY_SIZE) BLOCK_HEADER blocks

/-- The heap in a memory. -/
structure HeapAt (layout : HeapLayout) (mem : Memory) (free used : List Block) : Prop where
  links : HeapLinks layout.base (fields mem) free used
  tiling : TilesPool layout (free ++ used)
  ordered : free.Pairwise fun one other => one.stop < other.addr

variable {layout : HeapLayout} {mem : Memory} {q p n turns : Nat} {f : HeapFields}
  {free used front back blocks : List Block} {block : Block}

/-! ## Headers -/

namespace TilesPool

theorem bounds (tiling : TilesPool layout blocks) (member : block ∈ blocks) :
    layout.base + 8 ≤ block.addr ∧ 8 ≤ block.len ∧ block.addr + block.len < 4294967296 := by
  have inside := tiling.inside block member
  have long := tiling.long block member
  have inMemory := layout.inMemory
  unfold BLOCK_HEADER Block.stop at *
  omega

theorem head_absent (tiling : TilesPool layout blocks) : layout.base ∉ addrs blocks := by
  intro member
  obtain ⟨block, inBlocks, same⟩ := List.mem_map.mp member
  have := (tiling.bounds inBlocks).1
  omega

theorem headers_nodup (tiling : TilesPool layout blocks) : (layout.base :: addrs blocks).Nodup :=
  List.nodup_cons.mpr ⟨tiling.head_absent, tiling.starts_nodup (by decide)⟩

theorem headers_spaced (tiling : TilesPool layout blocks) : Spaced (layout.base :: addrs blocks) := by
  refine ⟨fun one oneIn other otherIn different => ?_⟩
  rcases List.mem_cons.mp oneIn with rfl | oneIn
  · rcases List.mem_cons.mp otherIn with rfl | otherIn
    · exact absurd rfl different
    · obtain ⟨block, member, rfl⟩ := List.mem_map.mp otherIn
      exact .inl (tiling.bounds member).1
  · obtain ⟨block, member, rfl⟩ := List.mem_map.mp oneIn
    have bounds := tiling.bounds member
    rcases List.mem_cons.mp otherIn with rfl | otherIn
    · exact .inr bounds.1
    · obtain ⟨block', member', rfl⟩ := List.mem_map.mp otherIn
      have bounds' := tiling.bounds member'
      have apart := tiling.apart_of_ne member member' (fun same => different (same ▸ rfl))
      unfold Block.Apart Block.stop at apart
      omega

end TilesPool

theorem fields_next (mem : Memory) : (fields mem).next = mnext mem := rfl

theorem fields_len (mem : Memory) : (fields mem).len = mlen mem := rfl

theorem uint_eq (fits : n < 4294967296) : uint n = n := Nat.mod_eq_of_lt fits

namespace Agrees

theorem self (mem : Memory) (records : List Nat) : Agrees mem (fields mem) records :=
  fun _ _ => ⟨rfl, rfl⟩

theorem links {records : List Nat} (agrees : Agrees mem f records)
    (links : HeapLinks layout.base f free used)
    (inside : layout.base :: (addrs free ++ addrs used) ⊆ records) :
    HeapLinks layout.base (fields mem) free used :=
  links.congr fun _ member => agrees _ (inside member)

end Agrees

/-! ## Searches -/

theorem mallocWalk_eq {nbytes : Nat} : mallocWalk mem nbytes turns q (mnext mem q) =
    (searchLinks (fields mem).link (fun p => nbytes ≤ mlen mem p) turns q).map fun found =>
      found.2.map fun p => (found.1, p) := by
  induction turns generalizing q with
  | zero => rfl
  | succ turns ih =>
      rw [mallocWalk, searchLinks, HeapFields.link, fields_next]
      by_cases ends : mnext mem q = 0
      · rw [if_pos ends, if_pos ends]
        rfl
      · rw [if_neg ends, if_neg ends]
        change _ = Option.map _ (if nbytes ≤ mlen mem (mnext mem q) then _ else _)
        by_cases enough : nbytes ≤ mlen mem (mnext mem q)
        · rw [if_pos enough, if_pos (by omega)]
          rfl
        · rw [if_neg enough, if_neg (by omega), ih]

theorem freeWalk_eq {start : Nat} : freeWalk mem start turns q (mnext mem q) =
    (searchLinks (fields mem).link (start ≤ ·) turns q).map fun found =>
      (found.1, found.2.getD 0) := by
  induction turns generalizing q with
  | zero => rfl
  | succ turns ih =>
      rw [freeWalk, searchLinks, HeapFields.link, fields_next]
      by_cases ends : mnext mem q = 0
      · rw [if_pos (.inl ends), if_pos ends, ends]
        rfl
      · rw [if_neg ends]
        change _ = Option.map _ (if start ≤ mnext mem q then _ else _)
        by_cases stops : start ≤ mnext mem q
        · rw [if_pos (.inr stops), if_pos stops]
          rfl
        · rw [if_neg stops, if_neg (by omega), ih]

/-! ## Allocation -/

/-- The memory in which `BSP_Malloc` has taken a block. -/
def allocated (base : Nat) (mem : Memory) (n q p : Nat) : Memory :=
  setMlen (setMnext (mallocTake mem n q p) p n) p base

theorem HeapAt.takeWhole (heap : HeapAt layout mem (front ++ block :: back) used)
    {before : List Nat} (prev : layout.base :: addrs front = before ++ [q]) :
    HeapAt layout (allocated layout.base mem block.len q block.addr) (front ++ back)
      (block :: used) := by
  have tiling : TilesPool layout (block :: (front ++ back ++ used)) :=
    heap.tiling.perm (List.perm_middle.symm.append_right used)
  have bounds := tiling.bounds List.mem_cons_self
  have inMemory := layout.inMemory
  have sameLen : mlen mem block.addr = block.len := heap.links.lengths block (by simp)
  have spaced := tiling.headers_spaced
  have once := tiling.headers_nodup
  have qIn : q ∈ layout.base :: addrs front := prev ▸ List.mem_append_right _ List.mem_cons_self
  simp only [addrs_cons, addrs_append] at spaced once
  have apart : q ∉ addrs used := by grind
  have absent : block.addr ∉ layout.base :: (addrs (front ++ back) ++ addrs used) := by
    rw [addrs_append]
    grind
  rw [allocated, mallocTake, if_pos sameLen]
  refine ⟨?_, tiling.perm ?_, heap.ordered.sublist ?_⟩
  · have agrees := (((Agrees.self mem _).setMnext spaced (q := q) (n := mnext mem block.addr)
      (by grind) (loadWord_lt _ _)).setMnext spaced (q := block.addr) (n := block.len) (by grind)
      (by omega)).setMlen spaced (q := block.addr) (n := layout.base) (by grind) (by omega)
    refine agrees.links ((heap.links.takeOut apart prev).handOut block absent) ?_
    intro record member
    simp only [addrs_append, addrs_cons, List.mem_cons, List.mem_append] at member ⊢
    tauto
  · exact List.perm_middle.trans (by simp)
  · exact List.Sublist.append_left (List.sublist_cons_self _ _) _

/-- The headers after a block is split are those after it is taken out and the rest of it is put
in. -/
theorem split_fields {leftover : Nat} (different : leftover ≠ q) :
    ((f.setNext q leftover).setNext leftover p).setLen leftover n =
      (((f.setNext q p).setLen leftover n).setNext leftover p).setNext q leftover := by
  have same : Function.update (Function.update f.next q leftover) leftover p =
      Function.update (Function.update (Function.update f.next q p) leftover p) q leftover := by
    rw [Function.update_comm different, Function.update_idem]
  exact congrArg (HeapFields.mk · _) same

theorem allocated_split {base len : Nat} {records : List Nat} (spaced : Spaced records)
    (qIn : q ∈ records) (pIn : p ∈ records) (leftIn : p + n ∈ records) (different : p ≠ q)
    (sameLen : mlen mem p = len) (short : n < len) (ends : p + len < 4294967296)
    (baseFits : base < 4294967296) :
    Agrees (allocated base mem n q p) ((((((fields mem).setNext q (p + n)).setNext (p + n)
      (mnext mem p)).setLen (p + n) (len - n)).setNext p n).setLen p base) records := by
  have nextFits : mnext mem p < 4294967296 := loadWord_lt _ _
  have first := (Agrees.self mem records).setMnext spaced qIn (n := p + n) (by omega)
  have nextKept := (first p pIn).1
  rw [HeapFields.setNext_next, Function.update_of_ne different, fields_next] at nextKept
  have second := first.setMnext spaced leftIn nextFits
  have lenKept := (second p pIn).2
  rw [HeapFields.setNext_len, HeapFields.setNext_len, fields_len, sameLen] at lenKept
  rw [allocated, mallocTake, if_neg (by omega), uint_eq (n := p + n) (by omega)]
  dsimp only
  rw [nextKept, lenKept, show len + 4294967296 - n = len - n + 4294967296 by omega,
    uint, Nat.add_mod_right, ← uint, uint_eq (by omega)]
  exact ((second.setMlen spaced leftIn (by omega)).setMnext spaced pIn (by omega)).setMlen spaced
    pIn baseFits

theorem HeapAt.takeFront (heap : HeapAt layout mem (front ++ block :: back) used)
    {before : List Nat} (prev : layout.base :: addrs front = before ++ [q]) (header : 8 ≤ n)
    (room : n + 8 ≤ block.len) :
    HeapAt layout (allocated layout.base mem n q block.addr)
      (front ++ ⟨block.addr + n, block.len - n⟩ :: back) (⟨block.addr, n⟩ :: used) := by
  have whole : TilesPool layout (block :: (front ++ back ++ used)) :=
    heap.tiling.perm (List.perm_middle.symm.append_right used)
  have bounds := whole.bounds List.mem_cons_self
  have inMemory := layout.inMemory
  have sameLen : mlen mem block.addr = block.len := heap.links.lengths block (by simp)
  have tiling : TilesPool layout
      (⟨block.addr, n⟩ :: ⟨block.addr + n, block.len - n⟩ :: (front ++ back ++ used)) :=
    whole.split header room
  have spaced := tiling.headers_spaced
  have once := tiling.headers_nodup
  have qIn : q ∈ layout.base :: addrs front := prev ▸ List.mem_append_right _ List.mem_cons_self
  simp only [addrs_cons, addrs_append] at spaced once
  have apart : q ∉ addrs used := by grind
  have notLeft : block.addr + n ≠ q := by grind
  refine ⟨?_, tiling.perm ?_, ?_⟩
  · have agrees := allocated_split spaced (show q ∈ _ by grind) (show block.addr ∈ _ by grind)
      (show block.addr + n ∈ _ by grind) (by grind) sameLen (by omega) bounds.2.2
      (show layout.base < 4294967296 by omega)
    rw [split_fields notLeft] at agrees
    have outOf := heap.links.takeOut apart prev
    have links := (outOf.putIn ⟨block.addr + n, block.len - n⟩
      (by rw [addrs_append]; grind) apart (by dsimp only; omega) prev)
    rw [HeapFields.setNext_next, Function.update_self] at links
    refine agrees.links (links.handOut ⟨block.addr, n⟩ ?_) ?_
    · rw [addrs_append, addrs_cons]
      grind
    · intro record member
      simp only [addrs_append, addrs_cons, List.mem_cons, List.mem_append] at member ⊢
      tauto
  · refine List.perm_middle.trans (.cons _ ?_)
    rw [List.append_assoc, List.append_assoc, List.cons_append]
    exact List.perm_middle
  · obtain ⟨early, late, across⟩ := List.pairwise_append.mp heap.ordered
    obtain ⟨behind, late⟩ := List.pairwise_cons.mp late
    refine List.pairwise_append.mpr ⟨early, List.pairwise_cons.mpr ⟨?_, late⟩, ?_⟩
    · intro other member
      have := behind other member
      unfold Block.stop at *
      dsimp only
      omega
    · rintro one member other (_ | ⟨_, inBack⟩)
      · have := across one member block List.mem_cons_self
        dsimp only
        omega
      · exact across one member other (List.mem_cons_of_mem _ inBack)

/-- The size of the block that `BSP_Malloc` searches. -/
def mallocSize (nbytes : Nat) : Nat := uint (roundmb nbytes + BLOCK_HEADER)

theorem HeapAt.search (heap : HeapAt layout mem (front ++ back) used) (turns : Nat)
    (stop : Nat → Prop) [DecidablePred stop] (passes : ∀ block ∈ front, ¬ stop block.addr)
    (stops : ∀ block ∈ back.head?, stop block.addr) {before : List Nat}
    (prev : layout.base :: addrs front = before ++ [q]) :
    searchLinks (fields mem).link stop turns layout.base =
      if front.length < turns then some (q, back.head?.map Block.addr) else none := by
  have path : Path (fields mem).link ((fields mem).link layout.base) (addrs front ++ addrs back)
      none := addrs_append front back ▸ heap.links.chain.2
  rw [searchLinks_eq path (List.forall_mem_map.mpr passes) ?_ prev, addrs, addrs, List.length_map,
    List.head?_map]
  intro other first
  rw [addrs, List.head?_map] at first
  obtain ⟨block, isFirst, rfl⟩ := Option.map_eq_some_iff.mp first
  exact stops block isFirst

theorem HeapAt.malloc_eq (heap : HeapAt layout mem (front ++ back) used) {nbytes : Nat}
    (some_ : nbytes ≠ 0) (present : front ++ back ≠ [])
    (short : ∀ block ∈ front, block.len < mallocSize nbytes)
    (enough : ∀ block ∈ back.head?, mallocSize nbytes ≤ block.len) {before : List Nat}
    (prev : layout.base :: addrs front = before ++ [q]) :
    bspMalloc turns mem layout.base nbytes = if front.length < turns then
        some (match back.head? with
          | none => (mem, 0)
          | some block => (allocated layout.base mem (mallocSize nbytes) q block.addr,
              block.addr + 8))
      else none := by
  have lengths := heap.links.lengths
  have linked : mnext mem layout.base ≠ 0 := by
    obtain ⟨first, rest, isList⟩ := List.exists_cons_of_ne_nil present
    have leads := heap.links.chain.2
    rw [isList] at leads
    exact fun ends => absurd leads.1 (by
      rw [HeapFields.link, fields_next, if_pos ends]
      exact (Option.some_ne_none _).symm)
  have found := heap.search turns (fun p => mallocSize nbytes ≤ mlen mem p)
    (fun block member => by
      have := lengths block (List.mem_append_left _ member)
      have := short block member
      rw [fields_len] at *
      omega)
    (fun block first => by
      have := lengths block (List.mem_append_right _ (List.mem_of_mem_head? first))
      have := enough block first
      rw [fields_len] at *
      omega) prev
  rw [bspMalloc]
  dsimp only
  rw [if_neg some_, if_neg linked, ← mallocSize, mallocWalk_eq, found]
  by_cases within : front.length < turns
  · rw [if_pos within, if_pos within]
    cases isFirst : back.head? with
    | none => rfl
    | some block =>
        have member := List.mem_append_right front (List.mem_of_mem_head? isFirst)
        have bounds := heap.tiling.bounds (List.mem_append_left used member)
        have fits : uint (block.addr + BLOCK_HEADER) = block.addr + 8 :=
          uint_eq (by unfold BLOCK_HEADER; omega)
        exact congrArg (fun p => some (allocated layout.base mem (mallocSize nbytes) q block.addr, p)) fits
  · rw [if_neg within, if_neg within]
    rfl

end PosFirmware.Multitask
