import PosFirmware.Multitask.HeapCalls

/-! # Freed blocks

`BSP_Free` of an allocated block of a heap puts it into the free list by its address, as one
with each neighbour that it touches (`HeapAt.free_eq`).
-/

namespace PosFirmware.Multitask

open PosFirmware.Foundation

/-- A block before the blocks of a list, as one with the first if they touch. -/
def joinNext (block : Block) : List Block → List Block
  | [] => [block]
  | next :: rest =>
      if block.stop = next.addr then ⟨block.addr, block.len + next.len⟩ :: rest
      else block :: next :: rest

/-- A block in its place in a list, as one with each neighbour that it touches. -/
def insertFree (block : Block) : List Block → List Block
  | [] => [block]
  | first :: rest =>
      if block.addr ≤ first.addr then joinNext block (first :: rest)
      else if first.stop = block.addr then joinNext ⟨first.addr, first.len + block.len⟩ rest
      else first :: insertFree block rest

variable {layout : HeapLayout} {mem : Memory} {q p n turns : Nat} {f : HeapFields}
  {free used front back blocks : List Block} {block next : Block}

theorem insertFree_apart (before : ∀ other ∈ front, other.addr < block.addr)
    (apart : ∀ other ∈ front, other.stop ≠ block.addr)
    (behind : ∀ other ∈ back.head?, block.addr ≤ other.addr) :
    insertFree block (front ++ back) = front ++ joinNext block back := by
  induction front with
  | nil =>
      cases back with
      | nil => rfl
      | cons first rest => exact if_pos (behind first rfl)
  | cons first front ih =>
      rw [List.cons_append, insertFree,
        if_neg (Nat.not_le.mpr (before first List.mem_cons_self)),
        if_neg (apart first List.mem_cons_self),
        ih (fun other member => before other (List.mem_cons_of_mem _ member))
          fun other member => apart other (List.mem_cons_of_mem _ member)]
      rfl

theorem insertFree_touch (before : ∀ other ∈ front, other.addr < block.addr)
    (apart : ∀ other ∈ front, other.stop ≠ block.addr) (below : next.addr < block.addr)
    (touch : next.stop = block.addr) :
    insertFree block (front ++ next :: back) =
      front ++ joinNext ⟨next.addr, next.len + block.len⟩ back := by
  induction front with
  | nil =>
      rw [List.nil_append, insertFree, if_neg (Nat.not_le.mpr below), if_pos touch]
      rfl
  | cons first front ih =>
      rw [List.cons_append, insertFree,
        if_neg (Nat.not_le.mpr (before first List.mem_cons_self)),
        if_neg (apart first List.mem_cons_self),
        ih (fun other member => before other (List.mem_cons_of_mem _ member))
          fun other member => apart other (List.mem_cons_of_mem _ member)]
      rfl

/-! ## The list up to a block that was put in -/

/-- A heap in which a block of the free list may touch the next one. -/
structure JoinsAt (layout : HeapLayout) (mem : Memory) (front : List Block) (block : Block)
    (back used : List Block) : Prop where
  links : HeapLinks layout.base (fields mem) (front ++ block :: back) used
  tiling : TilesPool layout (front ++ block :: back ++ used)
  ordered : (front ++ back).Pairwise fun one other => one.stop < other.addr
  before : ∀ other ∈ front, other.stop < block.addr
  behind : ∀ other ∈ back, block.stop ≤ other.addr

/-- `BSP_Free` joins the block with the next one if they touch. -/
theorem JoinsAt.join (heap : JoinsAt layout mem front block back used) :
    HeapAt layout (freeJoin mem block.addr ((back.head?.map Block.addr).getD 0))
      (front ++ joinNext block back) used := by
  have sameLen : mlen mem block.addr = block.len := heap.links.lengths block (by simp)
  have bounds := heap.tiling.bounds (show block ∈ _ by simp)
  obtain ⟨early, late, across⟩ := List.pairwise_append.mp heap.ordered
  rw [freeJoin, sameLen, uint_eq (by omega), Nat.add_comm block.len]
  cases back with
  | nil =>
      rw [if_neg (by simp only [List.head?_nil, Option.map_none, Option.getD_none]; omega)]
      refine ⟨heap.links, heap.tiling, List.pairwise_append.mpr ⟨early, List.pairwise_singleton .., ?_⟩⟩
      intro one member other isBlock
      rw [List.mem_singleton.mp isBlock]
      exact heap.before one member
  | cons next back =>
      obtain ⟨later, late⟩ := List.pairwise_cons.mp late
      rw [List.head?_cons, Option.map_some, Option.getD_some, joinNext, Block.stop]
      by_cases touch : block.addr + block.len = next.addr
      · have nextLen : mlen mem next.addr = next.len := heap.links.lengths next (by simp)
        have bounds' := heap.tiling.bounds (show next ∈ _ by simp)
        have spaced := heap.tiling.headers_spaced
        have once := heap.tiling.headers_nodup
        simp only [addrs_append, addrs_cons] at spaced once
        have apart : block.addr ∉ addrs used := by grind
        rw [if_pos touch, if_pos touch, nextLen, uint_eq (by omega)]
        have first := (Agrees.self mem _).setMlen spaced (q := block.addr)
          (n := block.len + next.len) (by grind) (by omega)
        have second := first.setMnext spaced (q := block.addr)
          (n := mnext (setMlen mem block.addr (block.len + next.len)) next.addr) (by grind)
          (loadWord_lt _ _)
        have sameNext := (first next.addr (by grind)).1
        rw [HeapFields.setLen_next, fields_next] at sameNext
        have whole := heap.links
        rw [List.append_cons] at whole
        have prev : layout.base :: addrs (front ++ [block]) =
            (layout.base :: addrs front) ++ [block.addr] := by
          rw [addrs_append]
          rfl
        have taken := whole.takeOut apart prev
        rw [List.append_assoc] at taken
        have joined := taken.grow (n := block.len + next.len) apart
        have pair : TilesPool layout (block :: next :: (front ++ back ++ used)) := by
          refine heap.tiling.perm (List.Perm.symm ?_)
          rw [List.append_assoc, List.append_assoc, List.cons_append, List.cons_append]
          exact List.perm_middle.trans (.cons _ List.perm_middle)
        refine ⟨second.links ?_ ?_, (pair.join (by decide) touch).perm ?_,
          List.pairwise_append.mpr ⟨early, List.pairwise_cons.mpr ⟨?_, late⟩, ?_⟩⟩
        · rw [sameNext]
          exact joined
        · intro record member
          simp only [addrs_append, addrs_cons, List.mem_cons, List.mem_append] at member ⊢
          tauto
        · rw [List.append_assoc, List.append_assoc]
          exact List.perm_middle
        · intro other member
          have far := later other member
          unfold Block.stop at *
          dsimp only
          omega
        · rintro one member other (_ | ⟨_, inBack⟩)
          · exact heap.before one member
          · exact across one member other (List.mem_cons_of_mem _ inBack)
      · rw [if_neg touch, if_neg touch]
        refine ⟨heap.links, heap.tiling, List.pairwise_append.mpr ⟨early,
          List.pairwise_cons.mpr ⟨?_, List.pairwise_cons.mpr ⟨later, late⟩⟩, ?_⟩⟩
        · intro other member
          have close := heap.behind next List.mem_cons_self
          rcases List.mem_cons.mp member with rfl | member
          · exact Nat.lt_of_le_of_ne close touch
          · have far := later other member
            unfold Block.stop at *
            omega
        · rintro one member other (_ | ⟨_, inBack⟩)
          · exact heap.before one member
          · exact across one member other inBack

variable {rest : List Block}

theorem HeapAt.growFree (heap : HeapAt layout mem (front ++ next :: back) used)
    (taken : used.Perm (block :: rest)) (touch : next.stop = block.addr) :
    JoinsAt layout (setMlen mem next.addr (next.len + block.len)) front
      ⟨next.addr, next.len + block.len⟩ back rest := by
  have blockIn : block ∈ used := taken.mem_iff.mpr List.mem_cons_self
  have bounds := heap.tiling.bounds (show next ∈ _ by simp)
  have bounds' := heap.tiling.bounds (List.mem_append_right _ blockIn)
  have spaced := heap.tiling.headers_spaced
  have once := heap.tiling.headers_nodup
  simp only [addrs_append, addrs_cons] at spaced once
  have apart : next.addr ∉ addrs used := by grind
  obtain ⟨early, late, across⟩ := List.pairwise_append.mp heap.ordered
  obtain ⟨later, -⟩ := List.pairwise_cons.mp late
  have pair : TilesPool layout (next :: block :: (front ++ back ++ rest)) := by
    refine heap.tiling.perm (List.Perm.symm ?_)
    rw [List.append_assoc, List.cons_append, List.append_assoc]
    refine List.perm_middle.trans (.cons _ ?_)
    rw [← List.append_assoc, ← List.append_assoc]
    exact (taken.append_left _).trans List.perm_middle
  refine ⟨?_, (pair.join (by decide) touch).perm ?_, ?_, ?_, ?_⟩
  · have agrees := (Agrees.self mem _).setMlen spaced (q := next.addr) (n := next.len + block.len)
      (by grind) (by unfold Block.stop at touch; omega)
    refine (agrees.links (heap.links.grow apart) ?_).mono fun other member =>
      taken.mem_iff.mpr (List.mem_cons_of_mem _ member)
    intro record member
    simp only [addrs_append, addrs_cons, List.mem_cons, List.mem_append] at member ⊢
    tauto
  · rw [List.append_assoc, List.append_assoc]
    exact List.perm_middle
  · exact heap.ordered.sublist (List.Sublist.append_left (List.sublist_cons_self _ _) _)
  · exact fun other member => across other member next List.mem_cons_self
  · intro other member
    have far := later other member
    have blockApart := (List.pairwise_append.mp heap.tiling.apart).2.2 other (by simp [member])
      block blockIn
    have long := heap.tiling.bounds (show other ∈ _ by simp [member])
    unfold Block.Apart Block.stop at *
    dsimp only
    omega

theorem HeapLinks.next_eq {base : Nat} (links : HeapLinks base f (front ++ back) used)
    {before : List Nat} (prev : base :: addrs front = before ++ [q]) :
    f.next q = (back.head?.map Block.addr).getD 0 := by
  have chain := links.chain
  rw [HeapLinks.parts prev] at chain
  have rest := (Path.through_iff.mp chain).2
  cases back with
  | nil =>
      have ends : f.link q = none := rest
      rw [HeapFields.link, ite_eq_left_iff] at ends
      by_contra some_
      exact absurd (ends some_) (Option.some_ne_none _)
  | cons next back => exact (HeapFields.link_eq_some.mp rest.1).1

theorem HeapAt.putFree (heap : HeapAt layout mem (front ++ back) used)
    (taken : used.Perm (block :: rest)) (before_ : ∀ other ∈ front, other.addr < block.addr)
    (apart : ∀ other ∈ front, other.stop ≠ block.addr)
    (behind : ∀ other ∈ back, block.addr ≤ other.addr) {before : List Nat}
    (prev : layout.base :: addrs front = before ++ [q]) :
    JoinsAt layout (setMnext (setMnext (setMlen mem block.addr block.len) block.addr
      (mnext mem q)) q block.addr) front block back rest := by
  have blockIn : block ∈ used := taken.mem_iff.mpr List.mem_cons_self
  have tiling : TilesPool layout (block :: (front ++ back ++ rest)) :=
    heap.tiling.perm (List.Perm.symm ((taken.append_left _).trans List.perm_middle))
  have bounds := tiling.bounds List.mem_cons_self
  have away (other : Block) (member : other ∈ front ++ back) : block.Apart other :=
    (List.pairwise_cons.mp tiling.apart).1 other (List.mem_append_left _ member)
  have spaced := tiling.headers_spaced
  have once := tiling.headers_nodup
  have qIn : q ∈ layout.base :: addrs front := prev ▸ List.mem_append_right _ List.mem_cons_self
  simp only [addrs_cons, addrs_append] at spaced once
  refine ⟨?_, tiling.perm ?_, heap.ordered, ?_, ?_⟩
  · have agrees := ((((Agrees.self mem _).setMlen spaced (q := block.addr) (n := block.len)
      (by grind) (by omega)).setMnext spaced (q := block.addr) (n := mnext mem q) (by grind)
      (loadWord_lt _ _)).setMnext spaced (q := q) (n := block.addr) (by grind) (by omega))
    have fewer : rest ⊆ used := fun other member =>
      taken.mem_iff.mpr (List.mem_cons_of_mem _ member)
    have links := heap.links.mono fewer
    refine agrees.links (links.putIn block ?_ (by grind) (by omega) prev) ?_
    · rw [addrs_append]
      grind
    · intro record member
      simp only [addrs_append, addrs_cons, List.mem_cons, List.mem_append] at member ⊢
      tauto
  · rw [List.append_assoc, List.append_assoc]
    exact List.perm_middle
  · intro other member
    have := away other (List.mem_append_left _ member)
    have := before_ other member
    have := apart other member
    unfold Block.Apart Block.stop at *
    omega
  · intro other member
    have := away other (List.mem_append_right _ member)
    have := behind other member
    have := tiling.bounds (show other ∈ _ by simp [member])
    unfold Block.Apart Block.stop at *
    omega

theorem exists_split (ordered : free.Pairwise fun one other => one.stop < other.addr)
    (addr : Nat) : ∃ front back, free = front ++ back ∧ (∀ other ∈ front, other.addr < addr) ∧
      ∀ other ∈ back, addr ≤ other.addr := by
  induction free with
  | nil => exact ⟨[], [], rfl, by simp, by simp⟩
  | cons first rest ih =>
      obtain ⟨later, ordered⟩ := List.pairwise_cons.mp ordered
      by_cases below : first.addr < addr
      · obtain ⟨front, back, rfl, before, behind⟩ := ih ordered
        exact ⟨first :: front, back, rfl, List.forall_mem_cons.mpr ⟨below, before⟩, behind⟩
      · refine ⟨[], first :: rest, rfl, by simp, List.forall_mem_cons.mpr
          ⟨Nat.le_of_not_lt below, fun other member => ?_⟩⟩
        have far := later other member
        unfold Block.stop at far
        omega

theorem freePut_apart {pool start size : Nat} (before : q = pool ∨ uint (mlen mem q + q) < start)
    (behind : p = 0 ∨ uint (size + start) ≤ p) :
    freePut mem pool start size q p = freeJoin (setMnext (setMnext (setMlen mem start size) start p)
      q start) start p := by
  rw [freePut]
  dsimp only
  rw [if_neg (by omega), if_neg (by omega)]

theorem freePut_touch {pool start size : Nat} (block : q ≠ pool)
    (touch : uint (mlen mem q + q) = start) (behind : p = 0 ∨ uint (size + start) ≤ p) :
    freePut mem pool start size q p =
      freeJoin (setMlen mem q (uint (mlen mem q + size))) q p := by
  rw [freePut]
  dsimp only
  rw [if_neg (by omega), if_pos ⟨block, touch⟩]

/-- `BSP_Free` of an allocated block. -/
theorem HeapAt.free_eq (heap : HeapAt layout mem free used) (taken : used.Perm (block :: rest)) :
    ∃ k next, (∀ turns, bspFree turns mem (block.addr + 8) =
      if k < turns then some next else none) ∧
      HeapAt layout next (insertFree block free) rest := by
  obtain ⟨front, back, rfl, before, behind⟩ := exists_split heap.ordered block.addr
  have blockIn : block ∈ used := taken.mem_iff.mpr List.mem_cons_self
  obtain ⟨sizeOf, poolOf⟩ := heap.links.sizes block blockIn
  have bounds := heap.tiling.bounds (List.mem_append_right _ blockIn)
  obtain ⟨headers, q, prev⟩ : ∃ headers q, layout.base :: addrs front = headers ++ [q] :=
    ⟨_, _, (List.dropLast_append_getLast (List.cons_ne_nil _ _)).symm⟩
  have found (turns : Nat) := heap.search turns (block.addr ≤ ·)
    (fun other member => Nat.not_le.mpr (before other member))
    (fun other first => behind other (List.mem_of_mem_head? first)) prev
  have linkOf := heap.links.next_eq prev
  have away (other : Block) (member : other ∈ front ++ back) : other.Apart block :=
    (List.pairwise_append.mp heap.tiling.apart).2.2 other member block blockIn
  refine ⟨front.length, freePut mem layout.base block.addr block.len q
    ((back.head?.map Block.addr).getD 0), fun turns => ?_, ?_⟩
  · have same : block.addr + 8 - BLOCK_HEADER = block.addr := rfl
    have size : blockSize mem block.addr = block.len := sizeOf
    have pool : blockPool mem block.addr = layout.base := poolOf
    rw [bspFree, same, size, pool, freeWalk_eq, found]
    by_cases within : front.length < turns
    · rw [if_pos within, if_pos within]
      rfl
    · rw [if_neg within, if_neg within]
      rfl
  have farNext : (back.head?.map Block.addr).getD 0 = 0 ∨
      uint (block.len + block.addr) ≤ (back.head?.map Block.addr).getD 0 := by
    rw [uint_eq (by omega)]
    cases back with
    | nil => exact .inl rfl
    | cons next back =>
        have := behind next List.mem_cons_self
        have := away next (List.mem_append_right _ List.mem_cons_self)
        have := heap.tiling.bounds (show next ∈ _ by simp)
        unfold Block.Apart Block.stop at *
        simp only [List.head?_cons, Option.map_some, Option.getD_some]
        omega
  have behind' : ∀ other ∈ back.head?, block.addr ≤ other.addr := fun other first =>
    behind other (List.mem_of_mem_head? first)
  rcases List.eq_nil_or_concat front with rfl | ⟨front, last, rfl⟩
  · have joins := heap.putFree taken before (by simp) behind prev
    rw [← fields_next, linkOf] at joins
    have alone : [] ++ [layout.base] = headers ++ [q] := prev
    obtain rfl : layout.base = q := List.head_eq_of_cons_eq (List.append_inj' alone rfl).2
    rw [insertFree_apart before (by simp) behind', freePut_apart (.inl rfl) farNext]
    exact joins.join
  · rw [List.concat_eq_append] at *
    obtain rfl : last.addr = q := by
      rw [addrs_append, ← List.cons_append] at prev
      exact List.head_eq_of_cons_eq (List.append_inj' prev rfl).2
    have bounds' := heap.tiling.bounds (show last ∈ _ by simp)
    have lastLen : mlen mem last.addr = last.len := heap.links.lengths last (by simp)
    have top : uint (mlen mem last.addr + last.addr) = last.stop := by
      rw [lastLen, Nat.add_comm]
      exact uint_eq bounds'.2.2
    have early : ∀ other ∈ front, other.stop < last.addr := fun other member =>
      (List.pairwise_append.mp (List.pairwise_append.mp heap.ordered).1).2.2 other member last
        List.mem_cons_self
    have below := before last (by simp)
    have notPool : last.addr ≠ layout.base := by omega
    by_cases touch : last.stop = block.addr
    · have joinsAt : HeapAt layout mem (front ++ last :: back) used := by
        rw [List.append_cons]
        exact heap
      rw [← List.append_cons, insertFree_touch (fun other member => before other (by simp [member]))
        (fun other member => by have := early other member; omega) below touch,
        freePut_touch notPool (top.trans touch) farNext, lastLen,
        uint_eq (by unfold Block.stop at touch; omega)]
      exact (joinsAt.growFree taken touch).join
    · have apart : ∀ other ∈ front ++ [last], other.stop ≠ block.addr := by
        intro other member
        rcases List.mem_append.mp member with member | isLast
        · have := early other member
          omega
        · rw [List.mem_singleton.mp isLast]
          exact touch
      have joins := heap.putFree taken before apart behind prev
      rw [← fields_next, linkOf] at joins
      have near := away last (by simp)
      have long := bounds.2.1
      rw [insertFree_apart before apart behind', freePut_apart (.inr ?_) farNext]
      · exact joins.join
      · rw [top]
        unfold Block.Apart Block.stop at *
        omega

end PosFirmware.Multitask
