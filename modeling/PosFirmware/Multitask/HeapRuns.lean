import Mathlib.Data.List.TakeWhile
import PosFirmware.Foundation.Run
import PosFirmware.Multitask.HeapFree

/-! # Runs of the heap

The blocks of a heap after each call (`heapStep`), and when a call leaves them as they should be
(`CallFits`). `heap_run` joins what each call does over runs.
-/

namespace PosFirmware.Multitask

open PosFirmware.Foundation

/-- The free blocks by address, and the held ones. -/
structure HeapBlocks where
  free : List Block
  used : List Block

/-- The first free blocks, which are too short for a request. -/
def tooShort (free : List Block) (n : Nat) : List Block := free.takeWhile fun block => block.len < n

/-- The first free block that is long enough, and those behind it. -/
def fromFit (free : List Block) (n : Nat) : List Block := free.dropWhile fun block => block.len < n

/-- The blocks after a call. -/
def heapStep (heap : HeapBlocks) : HeapEvent → HeapBlocks
  | .malloc nbytes =>
      if nbytes.toNat = 0 then heap
      else
        let n := mallocSize nbytes.toNat
        match fromFit heap.free n with
        | [] => heap
        | block :: back =>
            if block.len = n then ⟨tooShort heap.free n ++ back, block :: heap.used⟩
            else ⟨tooShort heap.free n ++ ⟨block.addr + n, block.len - n⟩ :: back,
              ⟨block.addr, n⟩ :: heap.used⟩
  | .free i =>
      match heap.used[i]? with
      | none => heap
      | some block => ⟨insertFree block heap.free, heap.used.eraseIdx i⟩

/-- A request whose size does not wrap and for which the first block that is long enough is as
long as it has to be, or leaves the room of a header. -/
def CallFits (heap : HeapBlocks) : HeapEvent → Prop
  | .malloc nbytes => nbytes.toNat = 0 ∨ heap.free = [] ∨ (nbytes.toNat ≤ 4294967284 ∧
      ∀ block ∈ (fromFit heap.free (mallocSize nbytes.toNat)).head?,
        block.len = mallocSize nbytes.toNat ∨
          mallocSize nbytes.toNat + BLOCK_HEADER ≤ block.len)
  | .free _ => True

instance (heap : HeapBlocks) : (event : HeapEvent) → Decidable (CallFits heap event)
  | .malloc _ => inferInstanceAs (Decidable (_ ∨ _ ∨ (_ ∧ _)))
  | .free _ => inferInstanceAs (Decidable True)

/-- The heap of a user, who holds each of the allocated blocks, with room behind its header for
what was asked for. -/
structure HeapKept (layout : HeapLayout) (s : HeapUser) (heap : HeapBlocks) : Prop where
  at_ : HeapAt layout s.mem heap.free heap.used
  returned : List.Forall₂ (fun held block => held.1 = block.addr + BLOCK_HEADER ∧
    held.2 + BLOCK_HEADER ≤ block.len) s.held heap.used

/-- A call returns, and with one state only. -/
structure CallReturns (layout : HeapLayout) (s : HeapUser) (event : HeapEvent) (next : HeapUser) :
    Prop where
  returns : ∃ turns, heapCall layout turns s event = some next
  unique : ∀ turns other, heapCall layout turns s event = some other → other = next

variable {layout : HeapLayout} {s next : HeapUser} {heap heap' : HeapBlocks} {turns k : Nat}
  {event : HeapEvent} {nbytes : BitVec 32}

theorem CallReturns.of_eq (same : ∀ turns, heapCall layout turns s event =
    if k < turns then some next else none) : CallReturns layout s event next := by
  refine ⟨⟨k + 1, ?_⟩, fun turns other returns => ?_⟩
  · rw [same, if_pos (Nat.lt_succ_self k)]
  · rw [same, Option.ite_none_right_eq_some] at returns
    exact (Option.some.inj returns.2).symm

theorem CallReturns.of_const (same : ∀ turns, heapCall layout turns s event = some next) :
    CallReturns layout s event next := by
  refine ⟨⟨0, same 0⟩, fun turns other returns => ?_⟩
  rw [same] at returns
  exact (Option.some.inj returns).symm

/-! ## Requests -/

theorem malloc_zero (zero : nbytes.toNat = 0) : CallReturns layout s (.malloc nbytes) s := by
  refine .of_const fun turns => ?_
  rw [heapCall, bspMalloc]
  dsimp only
  rw [if_pos zero]
  rfl

theorem malloc_exhausted (kept : HeapKept layout s heap) (empty : heap.free = []) :
    CallReturns layout s (.malloc nbytes) s := by
  by_cases zero : nbytes.toNat = 0
  · exact malloc_zero zero
  have links := kept.at_.links
  rw [empty, ← List.append_nil []] at links
  have prev : layout.base :: addrs [] = [] ++ [layout.base] := rfl
  have ends : mnext s.mem layout.base = 0 := links.next_eq prev
  refine .of_const fun turns => ?_
  rw [heapCall, bspMalloc]
  dsimp only
  rw [if_neg zero, if_pos ends]
  rfl

theorem tooShort_append (free : List Block) (n : Nat) : tooShort free n ++ fromFit free n = free :=
  List.takeWhile_append_dropWhile

theorem tooShort_short {free : List Block} {n : Nat} :
    ∀ block ∈ tooShort free n, block.len < n := by
  intro block member
  have short := List.mem_takeWhile_imp member
  simpa using short

theorem fromFit_fits {free : List Block} {n : Nat} :
    ∀ block ∈ (fromFit free n).head?, n ≤ block.len := by
  intro block first
  have stops := List.head?_dropWhile_not (fun block : Block => decide (block.len < n)) free
  rw [show (free.dropWhile fun block => decide (block.len < n)).head? = some block from first] at stops
  simpa using stops

theorem mallocSize_pos {n : Nat} (some_ : n ≠ 0) (small : n ≤ 4294967284) :
    12 ≤ mallocSize n ∧ n + 8 ≤ mallocSize n := by
  unfold mallocSize uint roundmb uint BLOCK_HEADER
  omega

theorem mallocSize_wraps {n : Nat} (large : 4294967284 < n) (word : n < 4294967296) :
    mallocSize n ≤ 8 := by
  unfold mallocSize uint roundmb uint BLOCK_HEADER
  omega

theorem malloc_call (kept : HeapKept layout s heap) (some_ : nbytes.toNat ≠ 0)
    (present : heap.free ≠ []) : ∃ headers q,
    layout.base :: addrs (tooShort heap.free (mallocSize nbytes.toNat)) = headers ++ [q] ∧
    CallReturns layout s (.malloc nbytes)
      (match (fromFit heap.free (mallocSize nbytes.toNat)).head? with
      | none => s
      | some block => ⟨allocated layout.base s.mem (mallocSize nbytes.toNat) q block.addr,
          (block.addr + 8, nbytes.toNat) :: s.held⟩) := by
  have parts := tooShort_append heap.free (mallocSize nbytes.toNat)
  have heapAt : HeapAt layout s.mem (tooShort heap.free (mallocSize nbytes.toNat) ++
      fromFit heap.free (mallocSize nbytes.toNat)) heap.used := parts.symm ▸ kept.at_
  obtain ⟨headers, q, prev⟩ : ∃ headers q, layout.base ::
      addrs (tooShort heap.free (mallocSize nbytes.toNat)) = headers ++ [q] :=
    ⟨_, _, (List.dropLast_append_getLast (List.cons_ne_nil _ _)).symm⟩
  refine ⟨headers, q, prev, ?_⟩
  apply CallReturns.of_eq
  intro turns
  rw [heapCall, heapAt.malloc_eq some_ (parts.symm ▸ present) tooShort_short fromFit_fits prev,
    apply_ite (Option.map _)]
  congr 1
  cases (fromFit heap.free (mallocSize nbytes.toNat)).head? with
  | none => rfl
  | some block => rfl

theorem malloc_stands (kept : HeapKept layout s heap) (fits : CallFits heap (.malloc nbytes)) :
    ∃ next, CallReturns layout s (.malloc nbytes) next ∧
      HeapKept layout next (heapStep heap (.malloc nbytes)) := by
  by_cases zero : nbytes.toNat = 0
  · refine ⟨s, malloc_zero zero, ?_⟩
    rw [heapStep, if_pos zero]
    exact kept
  by_cases empty : heap.free = []
  · refine ⟨s, malloc_exhausted kept empty, ?_⟩
    rw [heapStep, if_neg zero, empty]
    exact kept
  obtain ⟨small, room⟩ := (fits.resolve_left zero).resolve_left empty
  obtain ⟨enough, asked⟩ := mallocSize_pos zero small
  obtain ⟨headers, q, prev, returns⟩ := malloc_call kept zero empty
  refine ⟨_, returns, ?_⟩
  have parts := tooShort_append heap.free (mallocSize nbytes.toNat)
  rw [heapStep, if_neg zero]
  dsimp only
  generalize mallocSize nbytes.toNat = n at *
  cases found : fromFit heap.free n with
  | nil => exact kept
  | cons block back =>
      rw [found] at room parts
      have heapAt : HeapAt layout s.mem (tooShort heap.free n ++ block :: back) heap.used :=
        parts.symm ▸ kept.at_
      change HeapKept layout ⟨_, _⟩ (if block.len = n then _ else _)
      by_cases whole : block.len = n
      · subst whole
        rw [if_pos rfl]
        exact ⟨heapAt.takeWhole prev, .cons ⟨rfl, asked⟩ kept.returned⟩
      · rw [if_neg whole]
        have rest := (room block rfl).resolve_left whole
        exact ⟨heapAt.takeFront prev (by omega) rest, .cons ⟨rfl, asked⟩ kept.returned⟩

theorem HeapKept.reach (kept : HeapKept layout next heap') {front : List Nat} {p : Nat}
    (path : Path (fields next.mem).link (some layout.base) (layout.base :: front) (some p)) :
    BLOCK_HEADER ≤ mlen next.mem p := by
  obtain ⟨back, same⟩ := kept.at_.links.chain.front_of_path path
  have member : p ∈ addrs heap'.free := by
    rw [List.tail_eq_of_cons_eq same]
    exact List.mem_append_right _ List.mem_cons_self
  obtain ⟨block, inFree, rfl⟩ := List.mem_map.mp member
  have sameLen : mlen next.mem block.addr = block.len := kept.at_.links.lengths block inFree
  rw [sameLen]
  exact kept.at_.tiling.long block (List.mem_append_left _ inFree)

theorem HeapKept.asked_small (kept : HeapKept layout next heap') {pData n : Nat}
    {held : List (Nat × Nat)} (holds : next.held = (pData, n) :: held) : n ≤ 4294967284 := by
  have returned := kept.returned
  rw [holds] at returned
  cases used : heap'.used with
  | nil =>
      rw [used] at returned
      cases returned
  | cons block rest =>
      rw [used] at returned
      obtain ⟨⟨-, asked⟩, -⟩ := List.forall₂_cons.mp returned
      have bounds := kept.at_.tiling.bounds (show block ∈ _ by simp [used])
      unfold BLOCK_HEADER at asked
      omega

/-- What is left over of a block comes into the free list, however short it is. -/
theorem takeShort {mem : Memory} {front back used : List Block} {block : Block} {n q : Nat}
    {headers : List Nat} (heap : HeapAt layout mem (front ++ block :: back) used)
    (prev : layout.base :: addrs front = headers ++ [q]) (header : 8 ≤ n) (short : n < block.len) :
    Path (fields (allocated layout.base mem n q block.addr)).link (some layout.base)
        (layout.base :: addrs front) (some (block.addr + n)) ∧
      mlen (allocated layout.base mem n q block.addr) (block.addr + n) = block.len - n := by
  have bounds := heap.tiling.bounds (show block ∈ _ by simp)
  have inMemory := layout.inMemory
  have sameLen : mlen mem block.addr = block.len := heap.links.lengths block (by simp)
  have below : ∀ record ∈ layout.base :: addrs front, record + 8 ≤ block.addr := by
    refine List.forall_mem_cons.mpr ⟨bounds.1, List.forall_mem_map.mpr fun other member => ?_⟩
    have before := (List.pairwise_append.mp heap.ordered).2.2 other member block List.mem_cons_self
    have long := (heap.tiling.bounds (show other ∈ _ by simp [member])).2.1
    unfold Block.stop at before
    omega
  have early : Spaced (layout.base :: addrs front) := heap.tiling.headers_spaced.mono (by simp)
  have spaced : Spaced (layout.base :: addrs front ++ [block.addr, block.addr + n]) := by
    refine ⟨fun one oneIn other otherIn different => ?_⟩
    rcases List.mem_append.mp oneIn with oneIn | oneIn
    · have := below one oneIn
      rcases List.mem_append.mp otherIn with otherIn | otherIn
      · exact early.apart one oneIn other otherIn different
      · simp only [List.mem_cons, List.not_mem_nil, or_false] at otherIn
        omega
    · simp only [List.mem_cons, List.not_mem_nil, or_false] at oneIn
      rcases List.mem_append.mp otherIn with otherIn | otherIn
      · have := below other otherIn
        omega
      · simp only [List.mem_cons, List.not_mem_nil, or_false] at otherIn
        omega
  have qIn : q ∈ layout.base :: addrs front := prev ▸ List.mem_append_right _ List.mem_cons_self
  have notBlock : block.addr ≠ q := by
    have := below q qIn
    omega
  have agrees := allocated_split spaced (List.mem_append_left _ qIn)
    (List.mem_append_right _ List.mem_cons_self) (by simp) notBlock sameLen short bounds.2.2
    (show layout.base < 4294967296 by omega)
  refine ⟨?_, ?_⟩
  · have chain := heap.links.chain
    rw [HeapLinks.parts prev] at chain
    obtain ⟨path, -⟩ := Path.through_iff.mp chain
    have once : (headers ++ [q]).Nodup := by
      have nodup := chain.nodup
      rw [List.append_cons] at nodup
      exact List.Nodup.of_append_left nodup
    have leads (record : Nat) (member : record ∈ layout.base :: addrs front) :
        (fields (allocated layout.base mem n q block.addr)).next record =
          Function.update (fields mem).next q (block.addr + n) record := by
      have := below record member
      rw [fields_next, (agrees record (List.mem_append_left _ member)).1, HeapFields.setLen_next,
        HeapFields.setNext_next, Function.update_of_ne (by omega), HeapFields.setLen_next,
        HeapFields.setNext_next, Function.update_of_ne (by omega), HeapFields.setNext_next]
    rw [prev]
    refine Path.through_iff.mpr ⟨path.congr fun record member => ?_, ?_⟩
    · have different : record ≠ q := fun same =>
        (List.nodup_append.mp once).2.2 record member q List.mem_cons_self same
      rw [HeapFields.link, HeapFields.link, leads record (by simp [prev, member]),
        Function.update_of_ne different]
    · have toLeft := leads q qIn
      rw [Function.update_self] at toLeft
      exact HeapFields.link_eq_some.mpr ⟨toLeft, by omega⟩
  · rw [(agrees _ (by simp)).2, HeapFields.setLen_len, Function.update_of_ne (by omega)]
    exact Function.update_self ..

theorem malloc_fails (kept : HeapKept layout s heap) (fails : ¬ CallFits heap (.malloc nbytes))
    (returns : heapCall layout turns s (.malloc nbytes) = some next) :
    ¬ HeapKept layout next heap' := by
  intro kept'
  simp only [CallFits, not_or, not_and] at fails
  obtain ⟨zero, empty, fails⟩ := fails
  obtain ⟨headers, q, prev, returns'⟩ := malloc_call kept zero empty
  have same := returns'.unique turns next returns
  have parts := tooShort_append heap.free (mallocSize nbytes.toNat)
  cases found : fromFit heap.free (mallocSize nbytes.toNat) with
  | nil =>
      rw [found] at fails
      have large : ¬ nbytes.toNat ≤ 4294967284 := fun small => fails small (by simp)
      have wraps := mallocSize_wraps (Nat.lt_of_not_le large) nbytes.isLt
      rw [found, List.append_nil] at parts
      obtain ⟨first, rest, isList⟩ := List.exists_cons_of_ne_nil empty
      have short := tooShort_short first (by rw [parts, isList]; exact List.mem_cons_self)
      have long := (kept.at_.tiling.bounds (show first ∈ _ by simp [isList])).2.1
      omega
  | cons block back =>
      rw [found] at same fails parts
      subst same
      have small := kept'.asked_small rfl
      have header := (mallocSize_pos zero small).1
      have fails := fails small
      simp only [List.head?_cons, Option.mem_def, Option.some.injEq, forall_eq', not_or] at fails
      have enough := fromFit_fits block (by rw [found]; rfl)
      have heapAt : HeapAt layout s.mem (tooShort heap.free (mallocSize nbytes.toNat) ++
          block :: back) heap.used := parts.symm ▸ kept.at_
      obtain ⟨path, left⟩ := takeShort (n := mallocSize nbytes.toNat) heapAt prev
        (by omega) (by omega)
      have reached := kept'.reach path
      change BLOCK_HEADER ≤ mlen (allocated layout.base s.mem _ q block.addr) _ at reached
      rw [left] at reached
      omega

/-! ## Runs -/

theorem forall₂_eraseIdx {α β : Type} {related : α → β → Prop} {xs : List α} {ys : List β}
    (all : List.Forall₂ related xs ys) (i : Nat) : (xs[i]? = none ∧ ys[i]? = none) ∨
      ∃ x y, xs[i]? = some x ∧ ys[i]? = some y ∧ related x y ∧
        List.Forall₂ related (xs.eraseIdx i) (ys.eraseIdx i) := by
  induction all generalizing i with
  | nil => exact .inl ⟨rfl, rfl⟩
  | cons both rest ih =>
      cases i with
      | zero => exact .inr ⟨_, _, rfl, rfl, both, rest⟩
      | succ i =>
          rcases ih i with ends | ⟨x, y, isX, isY, pair, others⟩
          · exact .inl ends
          · exact .inr ⟨x, y, isX, isY, pair, .cons both others⟩

theorem call_stands (kept : HeapKept layout s heap) (fits : CallFits heap event) :
    ∃ next, CallReturns layout s event next ∧ HeapKept layout next (heapStep heap event) := by
  cases event with
  | malloc nbytes => exact malloc_stands kept fits
  | free i =>
      rcases forall₂_eraseIdx kept.returned i with
        ⟨nothing, nothing'⟩ | ⟨held, block, isHeld, isBlock, ⟨pointer, -⟩, others⟩
      · refine ⟨s, .of_const fun turns => ?_, ?_⟩
        · rw [heapCall, nothing]
        · rw [heapStep, nothing']
          exact kept
      · obtain ⟨within, isBlock'⟩ := List.getElem?_eq_some_iff.mp isBlock
        have taken : heap.used.Perm (block :: heap.used.eraseIdx i) :=
          isBlock' ▸ (List.getElem_cons_eraseIdx_perm within).symm
        obtain ⟨k, mem, returns, freed⟩ := kept.at_.free_eq taken
        refine ⟨⟨mem, s.held.eraseIdx i⟩, .of_eq (k := k) fun turns => ?_, ?_⟩
        · have found : bspFree turns s.mem held.1 = if k < turns then some mem else none := by
            rw [pointer]
            exact returns turns
          rw [heapCall, isHeld]
          dsimp only
          rw [found, apply_ite (Option.map _)]
          rfl
        · rw [heapStep, isBlock]
          exact ⟨freed, others⟩

theorem call_fails (kept : HeapKept layout s heap)
    (returns : heapCall layout turns s event = some next) (kept' : HeapKept layout next heap') :
    CallFits heap event := by
  by_contra fails
  cases event with
  | malloc nbytes => exact malloc_fails kept fails returns kept'
  | free i => exact fails trivial

/-- Every part of a run returns and leaves the heap as it should be. -/
def StaysHeap (layout : HeapLayout) (s : HeapUser) (events : List HeapEvent) : Prop :=
  ∀ n, ∃ last heap, HeapRuns layout s (events.take n) last ∧ HeapKept layout last heap

theorem stays_heap_iff {events : List HeapEvent} (kept : HeapKept layout s heap) :
    StaysHeap layout s events ↔ Meets heapStep CallFits heap events := by
  induction events generalizing s heap with
  | nil =>
      refine ⟨fun _ => trivial, fun _ n => ⟨s, heap, ?_⟩⟩
      rw [List.take_nil]
      exact ⟨.done s, kept⟩
  | cons event rest ih =>
      constructor
      · intro stays
        obtain ⟨last, heap', runs, kept'⟩ := stays 1
        cases runs with
        | call returns later =>
            cases later
            have fits := call_fails kept returns kept'
            obtain ⟨next, called, goesOn⟩ := call_stands kept fits
            refine ⟨fits, (ih goesOn).mp fun n => ?_⟩
            obtain ⟨last, heap', runs, kept'⟩ := stays (n + 1)
            cases runs with
            | call again later =>
                rw [called.unique _ _ again] at later
                exact ⟨last, heap', later, kept'⟩
      · rintro ⟨fits, meets⟩ n
        cases n with
        | zero => exact ⟨s, heap, .done s, kept⟩
        | succ n =>
            obtain ⟨next, called, goesOn⟩ := call_stands kept fits
            obtain ⟨turns, returns⟩ := called.returns
            obtain ⟨last, heap', runs, kept'⟩ := (ih goesOn).mpr meets n
            exact ⟨last, heap', .call returns runs, kept'⟩

/-- The blocks after `BSP_MEM_Init`. -/
def wholeHeap (layout : HeapLayout) : HeapBlocks :=
  ⟨[⟨layout.base + BLOCK_HEADER, SYS_MEMORY_SIZE - BLOCK_HEADER⟩], []⟩

theorem memMgrInit_eq (mem : Memory) (base : Nat) : memMgrInit mem base SYS_MEMORY_SIZE =
    setMlen (setMnext (setMlen (setMnext mem base (base + BLOCK_HEADER)) base 0)
      (base + BLOCK_HEADER) 0) (base + BLOCK_HEADER) (SYS_MEMORY_SIZE - BLOCK_HEADER) := by
  have aligned : SYS_MEMORY_SIZE / 4 * 4 = SYS_MEMORY_SIZE := by decide
  rw [memMgrInit, aligned]

theorem kept_init (mem : Memory) :
    HeapKept layout (bspMemInit layout mem) (wholeHeap layout) := by
  have inMemory := layout.inMemory
  have room : 2 * BLOCK_HEADER ≤ SYS_MEMORY_SIZE := by decide
  have header : BLOCK_HEADER = 8 := rfl
  have spaced : Spaced [layout.base, layout.base + BLOCK_HEADER] := by
    refine ⟨fun one oneIn other otherIn different => ?_⟩
    simp only [List.mem_cons, List.not_mem_nil, or_false] at oneIn otherIn
    omega
  have first : layout.base ∈ [layout.base, layout.base + BLOCK_HEADER] := List.mem_cons_self
  have second : layout.base + BLOCK_HEADER ∈ [layout.base, layout.base + BLOCK_HEADER] :=
    List.mem_cons_of_mem _ List.mem_cons_self
  have agrees := ((((Agrees.self mem _).setMnext spaced first (n := layout.base + BLOCK_HEADER)
    (by omega)).setMlen spaced first (n := 0) (by omega)).setMnext spaced second (n := 0)
    (by omega)).setMlen spaced second (n := SYS_MEMORY_SIZE - BLOCK_HEADER) (by omega)
  have different : layout.base ≠ layout.base + BLOCK_HEADER := by omega
  have links : HeapLinks layout.base (((((fields mem).setNext layout.base
      (layout.base + BLOCK_HEADER)).setLen layout.base 0).setNext (layout.base + BLOCK_HEADER)
      0).setLen (layout.base + BLOCK_HEADER) (SYS_MEMORY_SIZE - BLOCK_HEADER))
      (wholeHeap layout).free [] := by
    refine ⟨⟨rfl, ?_, ?_⟩, ?_, by simp [Sized]⟩
    · have some_ : layout.base + BLOCK_HEADER ≠ 0 := by omega
      refine HeapFields.link_eq_some.mpr ⟨?_, some_⟩
      rw [HeapFields.setLen_next, HeapFields.setNext_next, Function.update_of_ne different,
        HeapFields.setLen_next, HeapFields.setNext_next, Function.update_self]
    · have ends := Function.update_self (layout.base + BLOCK_HEADER) 0
        ((((fields mem).setNext layout.base (layout.base + BLOCK_HEADER)).setLen layout.base 0).next)
      exact if_pos ends
    · intro block member
      rw [List.mem_singleton.mp member]
      exact Function.update_self ..
  refine ⟨⟨?_, ?_, List.pairwise_singleton ..⟩, .nil⟩
  · rw [bspMemInit, memMgrInit_eq]
    exact agrees.links links (by simp [wholeHeap, addrs])
  refine ⟨List.pairwise_singleton .., ?_, ?_, fun a above below => ⟨_, List.mem_cons_self, above, ?_⟩⟩
  · intro block member
    rw [List.mem_singleton.mp member]
    dsimp only
    omega
  · intro block member
    rw [List.mem_singleton.mp member]
    refine ⟨Nat.le_refl _, ?_⟩
    unfold Block.stop
    dsimp only
    omega
  · unfold Block.stop
    dsimp only
    omega

/-- **The system heap.** From `BSP_MEM_Init` every call of a run returns and leaves the free list
finite, in the order of its addresses and with no two blocks that touch, and the free and the
allocated blocks a tiling of the pool behind its head, each at least as long as its header and
as what was asked for, exactly when no request on a list with free blocks wraps or leaves less
than a header of the block that it takes. -/
theorem heap_run (layout : HeapLayout) (mem : Memory) (events : List HeapEvent) :
    StaysHeap layout (bspMemInit layout mem) events ↔
      Meets heapStep CallFits (wholeHeap layout) events :=
  stays_heap_iff (kept_init mem)

/-- A request that leaves four bytes of the pool. -/
theorem heap_leaves_less_than_header : ¬ StaysHeap ⟨536870912, by decide⟩
    (bspMemInit ⟨536870912, by decide⟩ fun _ => 0) [.malloc 102380] := by
  rw [stays_heap_iff (kept_init _)]
  decide

end PosFirmware.Multitask
