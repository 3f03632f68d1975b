import FuseX.Lib.Sweep
import Mathlib.Logic.Function.Basic

/-!
# The poke finder

`pokefinder.c` keeps a bit for each byte of RAM that is no candidate any more, the byte it
compares with and a count. Searching and the two comparisons go over all pages in the same way:
`sweep` is that loop, and `sweep_view` what it does to one address.
-/

namespace FuseX.Pokefinder

open Lib

/-! ## Memory -/

/-- `memory_map_ram` with the contents of its pages, and `valid_pages` of the machine. -/
structure Ram : Type where
  contents : Nat → Nat → UInt8
  writable : Nat → Bool
  validPages : Nat

/-- `MEMORY_PAGE_SIZE` -/
def pageSize : Nat := 2048

/-- `MEMORY_PAGES_IN_16K` -/
def pagesIn16K : Nat := 8

/-- `POKEFINDER_PAGE_COUNT`, with `SPECTRUM_RAM_PAGES` -/
def pageCount : Nat := pagesIn16K * 65

/-- The pages that `pokefinder_clear` looks at. -/
def Ram.isRam (ram : Ram) (page : Nat) : Bool :=
  decide (page < pagesIn16K * ram.validPages) && ram.writable page

/-! ## The finder -/

/-- The variables of `pokefinder.c`. -/
structure Finder : Type where
  allocated : Bool := false
  possible : Nat → Nat → UInt8 := fun _ _ => 0
  impossible : Nat → Nat → UInt8 := fun _ _ => 0
  count : Nat := 0

/-- `1 << ( offset & 7 )` -/
def bitOf (offset : Nat) : UInt8 := 1 <<< UInt8.ofNat (offset % 8)

/-- The bit that says that an address is no candidate. -/
def Finder.isImpossible (f : Finder) (page offset : Nat) : Bool :=
  f.impossible page (offset / 8) &&& bitOf offset != 0

/-- A byte in one of the tables. -/
def setByte (table : Nat → Nat → UInt8) (page i : Nat) (b : UInt8) : Nat → Nat → UInt8 :=
  Function.update table page (Function.update (table page) i b)

/-- The address is no candidate any more. -/
def Finder.drop (f : Finder) (page offset : Nat) : Finder :=
  { f with
    impossible := setByte f.impossible page (offset / 8)
      (f.impossible page (offset / 8) ||| bitOf offset)
    count := f.count - 1 }

/-- The body of the loops: an address stays when `keeps` holds of its byte and the one that is
saved for it; the comparisons save its byte then. -/
def visit (ram : Ram) (keeps : UInt8 → UInt8 → Bool) (saves : Bool) (f : Finder)
    (cell : Nat × Nat) : Finder :=
  let now := ram.contents cell.1 cell.2
  if f.isImpossible cell.1 cell.2 then f
  else if keeps now (f.possible cell.1 cell.2) then
    if saves then { f with possible := setByte f.possible cell.1 cell.2 now } else f
  else f.drop cell.1 cell.2

def sweep (ram : Ram) (keeps : UInt8 → UInt8 → Bool) (saves : Bool) (f : Finder) : Finder :=
  if f.allocated then
    (List.range pageCount).foldl
      (fun f page => (List.range pageSize).foldl
        (fun f offset => visit ram keeps saves f (page, offset)) f) f
  else f

/-- `pokefinder_search` -/
def pokefinderSearch (ram : Ram) (value : UInt8) (f : Finder) : Finder :=
  sweep ram (fun now _ => now == value) false f

/-- `pokefinder_incremented` -/
def pokefinderIncremented (ram : Ram) (f : Finder) : Finder :=
  sweep ram (fun now saved => decide (saved < now)) true f

/-- `pokefinder_decremented` -/
def pokefinderDecremented (ram : Ram) (f : Finder) : Finder :=
  sweep ram (fun now saved => decide (now < saved)) true f

/-- The body of the loop of `pokefinder_clear` -/
def clearPage (ram : Ram) (f : Finder) (page : Nat) : Finder :=
  if ram.isRam page then
    { f with
      count := f.count + pageSize
      possible := Function.update f.possible page (ram.contents page)
      impossible := Function.update f.impossible page fun _ => 0 }
  else { f with impossible := Function.update f.impossible page fun _ => 255 }

/-- `pokefinder_clear` -/
def pokefinderClear (ram : Ram) (f : Finder) : Finder :=
  (List.range pageCount).foldl (clearPage ram) { f with allocated := true, count := 0 }

/-! ## One address in a sweep -/

/-- The addresses of all pages, in the order of the loops. -/
def allCells : List (Nat × Nat) := List.range pageCount ×ˢ List.range pageSize

theorem allCells_nodup : allCells.Nodup := List.nodup_range.product List.nodup_range

theorem mem_allCells {cell : Nat × Nat} :
    cell ∈ allCells ↔ cell.1 < pageCount ∧ cell.2 < pageSize := by
  rw [allCells, List.mem_product, List.mem_range, List.mem_range]

theorem sweep_eq (ram : Ram) (keeps : UInt8 → UInt8 → Bool) (saves : Bool) {f : Finder}
    (allocated : f.allocated = true) :
    sweep ram keeps saves f = allCells.foldl (visit ram keeps saves) f := by
  rw [sweep, if_pos allocated]
  exact foldl_product (visit ram keeps saves) _ _ f

theorem or_and_byte (a b c : UInt8) : (a ||| b) &&& c = (a &&& c) ||| (b &&& c) :=
  UInt8.toBitVec_inj.mp BitVec.and_or_distrib_right

theorem or_and_self_byte (a b : UInt8) : (a ||| b) &&& b = b := by
  refine UInt8.toBitVec_inj.mp (BitVec.eq_of_getElem_eq fun i inside => ?_)
  rw [UInt8.toBitVec_and, UInt8.toBitVec_or, BitVec.getElem_and, BitVec.getElem_or]
  cases b.toBitVec[i] with
  | true => rw [Bool.or_true, Bool.and_true]
  | false => exact Bool.and_false _

theorem bitOf_ne_zero (offset : Nat) : bitOf offset ≠ 0 := by
  have bits : ∀ k : Fin 8, (1 : UInt8) <<< UInt8.ofNat k.val ≠ 0 := by decide
  exact bits ⟨offset % 8, Nat.mod_lt _ (by decide)⟩

theorem bitOf_apart {offset other : Nat} (apart : offset % 8 ≠ other % 8) :
    bitOf offset &&& bitOf other = 0 := by
  have bits : ∀ k j : Fin 8, k ≠ j →
      (1 : UInt8) <<< UInt8.ofNat k.val &&& 1 <<< UInt8.ofNat j.val = 0 := by decide
  exact bits ⟨offset % 8, Nat.mod_lt _ (by decide)⟩ ⟨other % 8, Nat.mod_lt _ (by decide)⟩
    fun same => apart (Fin.mk.inj same)

theorem setByte_other (table : Nat → Nat → UInt8) {page i page' i' : Nat} (b : UInt8)
    (ne : (page', i') ≠ (page, i)) : setByte table page i b page' i' = table page' i' := by
  rw [setByte]
  by_cases same : page' = page
  · rw [same, Function.update_self, Function.update_of_ne]
    exact fun here => ne (Prod.ext same here)
  · rw [Function.update_of_ne same]

theorem setByte_self (table : Nat → Nat → UInt8) (page i : Nat) (b : UInt8) :
    setByte table page i b page i = b := by
  rw [setByte, Function.update_self, Function.update_self]

theorem drop_self (f : Finder) (page offset : Nat) :
    (f.drop page offset).isImpossible page offset = true := by
  rw [Finder.isImpossible, Finder.drop]
  dsimp only
  rw [setByte_self, or_and_self_byte, bne_iff_ne]
  exact bitOf_ne_zero offset

/-- Dropping an address leaves the bits of all others. -/
theorem drop_other (f : Finder) {page offset page' offset' : Nat}
    (ne : (page', offset') ≠ (page, offset)) :
    (f.drop page offset).isImpossible page' offset' = f.isImpossible page' offset' := by
  rw [Finder.isImpossible, Finder.isImpossible, Finder.drop]
  dsimp only
  by_cases byte : (page', offset' / 8) = (page, offset / 8)
  · obtain ⟨rfl, sameByte⟩ := Prod.mk.inj byte
    have apart : offset % 8 ≠ offset' % 8 := by
      intro sameBit
      have same : offset' = offset := by omega
      exact ne (congrArg (Prod.mk page') same)
    rw [sameByte, setByte_self, or_and_byte, bitOf_apart apart, UInt8.or_zero]
  · rw [setByte_other _ _ byte]

/-! ## One address in a sweep -/

/-- What the finder has of an address. -/
def Finder.seen (f : Finder) (cell : Nat × Nat) : Bool × UInt8 :=
  (f.isImpossible cell.1 cell.2, f.possible cell.1 cell.2)

/-- What a sweep makes of it. -/
def seenAfter (ram : Ram) (keeps : UInt8 → UInt8 → Bool) (saves : Bool) (cell : Nat × Nat)
    (seen : Bool × UInt8) : Bool × UInt8 :=
  let now := ram.contents cell.1 cell.2
  if seen.1 then seen
  else if keeps now seen.2 then (false, if saves then now else seen.2)
  else (true, seen.2)

theorem seenAfter_fst (ram : Ram) (keeps : UInt8 → UInt8 → Bool) (saves : Bool)
    (cell : Nat × Nat) (seen : Bool × UInt8) :
    (seenAfter ram keeps saves cell seen).1
      = (seen.1 || !keeps (ram.contents cell.1 cell.2) seen.2) := by
  obtain ⟨gone, saved⟩ := seen
  cases gone with
  | true => rfl
  | false =>
    rw [seenAfter, if_neg Bool.false_ne_true, Bool.false_or]
    cases keeps (ram.contents cell.1 cell.2) saved with
    | true => rfl
    | false => rfl

theorem visit_own (ram : Ram) (keeps : UInt8 → UInt8 → Bool) (saves : Bool) (f : Finder)
    (cell : Nat × Nat) :
    (visit ram keeps saves f cell).seen cell = seenAfter ram keeps saves cell (f.seen cell) := by
  rw [visit, seenAfter]
  by_cases gone : f.isImpossible cell.1 cell.2 = true
  · rw [if_pos gone, if_pos (show (f.seen cell).1 = true from gone)]
  · have gone' : f.isImpossible cell.1 cell.2 = false := Bool.eq_false_iff.mpr gone
    rw [if_neg gone, if_neg (show ¬ (f.seen cell).1 = true from gone)]
    by_cases keep : keeps (ram.contents cell.1 cell.2) (f.possible cell.1 cell.2) = true
    · rw [if_pos keep, if_pos (show keeps _ (f.seen cell).2 = true from keep)]
      cases saves with
      | true => exact Prod.ext gone' (setByte_self _ _ _ _)
      | false => exact Prod.ext gone' rfl
    · rw [if_neg keep, if_neg (show ¬ keeps _ (f.seen cell).2 = true from keep)]
      exact Prod.ext (drop_self f cell.1 cell.2) rfl

theorem visit_others (ram : Ram) (keeps : UInt8 → UInt8 → Bool) (saves : Bool) (f : Finder)
    (cell other : Nat × Nat) (ne : other ≠ cell) :
    (visit ram keeps saves f cell).seen other = f.seen other := by
  rw [visit]
  split
  · rfl
  · split
    · cases saves with
      | true => exact Prod.ext rfl (setByte_other _ _ ne)
      | false => rfl
    · exact Prod.ext (drop_other f ne) rfl

theorem sweep_seen (ram : Ram) (keeps : UInt8 → UInt8 → Bool) (saves : Bool) {f : Finder}
    (allocated : f.allocated = true) {cell : Nat × Nat} (inside : cell ∈ allCells) :
    (sweep ram keeps saves f).seen cell = seenAfter ram keeps saves cell (f.seen cell) := by
  rw [sweep_eq ram keeps saves allocated]
  exact foldl_view (visit_own ram keeps saves) (visit_others ram keeps saves) allCells_nodup
    inside f

/-! ## The count -/

/-- An address that is a candidate. -/
def Finder.isCandidate (f : Finder) (cell : Nat × Nat) : Bool :=
  f.allocated && !f.isImpossible cell.1 cell.2

/-- The count is that of the candidates. -/
def Finder.Counted (f : Finder) : Prop := f.count = allCells.countP f.isCandidate

theorem visit_allocated (ram : Ram) (keeps : UInt8 → UInt8 → Bool) (saves : Bool) (f : Finder)
    (cell : Nat × Nat) : (visit ram keeps saves f cell).allocated = f.allocated := by
  rw [visit]
  split
  · rfl
  · split
    · cases saves <;> rfl
    · rfl

theorem visit_counted (ram : Ram) (keeps : UInt8 → UInt8 → Bool) (saves : Bool) {f : Finder}
    {cell : Nat × Nat} (inside : cell ∈ allCells) (allocated : f.allocated = true)
    (counted : f.Counted) : (visit ram keeps saves f cell).Counted := by
  rw [visit]
  split
  · exact counted
  · next there =>
    split
    · cases saves <;> exact counted
    · rw [Finder.Counted]
      have dropped : allCells.countP (f.drop cell.1 cell.2).isCandidate + 1
          = allCells.countP f.isCandidate := by
        refine countP_drop allCells_nodup inside ?_ ?_ fun other ne => ?_
        · rw [Finder.isCandidate, allocated, Bool.eq_false_iff.mpr there]
          rfl
        · rw [Finder.isCandidate, drop_self, Bool.not_true, Bool.and_false]
        · rw [Finder.isCandidate, Finder.isCandidate, drop_other f ne]
          rfl
      have lost : (f.drop cell.1 cell.2).count = f.count - 1 := rfl
      rw [Finder.Counted] at counted
      omega

theorem sweep_allocated (ram : Ram) (keeps : UInt8 → UInt8 → Bool) (saves : Bool) (f : Finder) :
    (sweep ram keeps saves f).allocated = f.allocated := by
  by_cases allocated : f.allocated = true
  · rw [sweep_eq ram keeps saves allocated]
    exact foldl_keeps (P := fun f' => f'.allocated = f.allocated)
      (fun f' cell _ same => (visit_allocated ram keeps saves f' cell).trans same) rfl
  · rw [sweep, if_neg allocated]

theorem sweep_counted (ram : Ram) (keeps : UInt8 → UInt8 → Bool) (saves : Bool) {f : Finder}
    (counted : f.Counted) : (sweep ram keeps saves f).Counted := by
  by_cases allocated : f.allocated = true
  · rw [sweep_eq ram keeps saves allocated]
    have both := foldl_keeps (P := fun f' : Finder => f'.allocated = true ∧ f'.Counted)
      (fun f' cell inside kept =>
        ⟨(visit_allocated ram keeps saves f' cell).trans kept.1,
          visit_counted ram keeps saves inside kept.1 kept.2⟩) ⟨allocated, counted⟩
    exact both.2
  · rw [sweep, if_neg allocated]
    exact counted

/-! ## Clearing -/

/-- What the finder has of a page. -/
def Finder.pageSeen (f : Finder) (page : Nat) : (Nat → UInt8) × (Nat → UInt8) :=
  (f.possible page, f.impossible page)

def pageCleared (ram : Ram) (page : Nat) (seen : (Nat → UInt8) × (Nat → UInt8)) :
    (Nat → UInt8) × (Nat → UInt8) :=
  if ram.isRam page then (ram.contents page, fun _ => 0) else (seen.1, fun _ => 255)

theorem clearPage_own (ram : Ram) (f : Finder) (page : Nat) :
    (clearPage ram f page).pageSeen page = pageCleared ram page (f.pageSeen page) := by
  rw [clearPage, pageCleared]
  split
  · exact Prod.ext (Function.update_self ..) (Function.update_self ..)
  · exact Prod.ext rfl (Function.update_self ..)

theorem clearPage_others (ram : Ram) (f : Finder) (page other : Nat) (ne : other ≠ page) :
    (clearPage ram f page).pageSeen other = f.pageSeen other := by
  rw [clearPage]
  split
  · exact Prod.ext (Function.update_of_ne ne ..) (Function.update_of_ne ne ..)
  · exact Prod.ext rfl (Function.update_of_ne ne ..)

theorem clear_seen (ram : Ram) (f : Finder) {page : Nat} (inside : page < pageCount) :
    (pokefinderClear ram f).pageSeen page = pageCleared ram page (f.pageSeen page) :=
  foldl_view (clearPage_own ram) (clearPage_others ram) List.nodup_range
    (List.mem_range.mpr inside) _

theorem clear_allocated (ram : Ram) (f : Finder) : (pokefinderClear ram f).allocated = true := by
  refine foldl_keeps (P := fun f' : Finder => f'.allocated = true) (fun f' page _ same => ?_) rfl
  rw [clearPage]
  split <;> exact same

/-- Behind a clear the candidates are the addresses of RAM. -/
theorem clear_isCandidate (ram : Ram) (f : Finder) {cell : Nat × Nat} (inside : cell ∈ allCells) :
    (pokefinderClear ram f).isCandidate cell = ram.isRam cell.1 := by
  have seen := clear_seen ram f (mem_allCells.mp inside).1
  have allocated := clear_allocated ram f
  generalize pokefinderClear ram f = cleared at seen allocated
  have bits : cleared.impossible cell.1 = (pageCleared ram cell.1 (f.pageSeen cell.1)).2 :=
    congrArg Prod.snd seen
  rw [Finder.isCandidate, allocated, Finder.isImpossible, bits, pageCleared, Bool.true_and]
  cases ram.isRam cell.1 with
  | true =>
    rw [if_pos rfl, UInt8.zero_and]
    rfl
  | false =>
    rw [if_neg Bool.false_ne_true]
    have full : (255 : UInt8) &&& bitOf cell.2 = bitOf cell.2 := UInt8.neg_one_and
    rw [full, bne_iff_ne.mpr (bitOf_ne_zero cell.2)]
    rfl

/-- A page has all of its addresses counted, or none. -/
theorem countP_product (p : Nat → Bool) (pages inner : List Nat) :
    (pages ×ˢ inner).countP (fun cell => p cell.1) = pages.countP p * inner.length := by
  induction pages with
  | nil => exact (Nat.zero_mul _).symm
  | cons page pages ih =>
    rw [List.product_cons, List.countP_append, ih, List.countP_map, Nat.add_comm]
    by_cases counts : p page = true
    · have all : inner.countP ((fun cell : Nat × Nat => p cell.1) ∘ Prod.mk page)
          = inner.length := List.countP_eq_length.mpr fun _ _ => counts
      rw [all, List.countP_cons_of_pos counts, Nat.succ_mul]
    · have none_ : inner.countP ((fun cell : Nat × Nat => p cell.1) ∘ Prod.mk page) = 0 :=
        List.countP_eq_zero.mpr fun _ _ => counts
      rw [none_, List.countP_cons_of_neg counts, Nat.add_zero]

theorem clear_count (ram : Ram) (f : Finder) (pages : List Nat) :
    (pages.foldl (clearPage ram) f).count = f.count + pages.countP ram.isRam * pageSize := by
  induction pages generalizing f with
  | nil => rw [List.countP_nil, Nat.zero_mul, Nat.add_zero, List.foldl_nil]
  | cons page pages ih =>
    rw [List.foldl_cons, ih, List.countP_cons, clearPage]
    split
    · dsimp only
      rw [Nat.add_mul, Nat.one_mul]
      omega
    · rfl

theorem clear_counted (ram : Ram) (f : Finder) : (pokefinderClear ram f).Counted := by
  have same : allCells.countP (pokefinderClear ram f).isCandidate
      = allCells.countP fun cell => ram.isRam cell.1 :=
    List.countP_congr fun cell inside => by rw [clear_isCandidate ram f inside]
  rw [Finder.Counted, same, allCells, countP_product, List.length_range, pokefinderClear,
    clear_count, Nat.zero_add]

end FuseX.Pokefinder
