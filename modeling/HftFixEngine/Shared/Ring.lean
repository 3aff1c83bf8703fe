import HftFixEngine.Shared.Slots

set_option autoImplicit false

namespace Ring

variable {α : Type} {cap : Nat}

theorem mask_eq_mod (powerOfTwo : cap &&& (cap - 1) = 0) (positive : 0 < cap) (n : Nat) :
    n &&& (cap - 1) = n % cap := by
  obtain ⟨exponent, rfl⟩ :=
    (Nat.and_sub_one_eq_zero_iff_isPowerOfTwo (by omega)).mp powerOfTwo
  exact Nat.and_two_pow_sub_one_eq_mod n exponent

theorem index_inj (lo : Nat) {m n : Nat} (left : lo ≤ m ∧ m < lo + cap)
    (right : lo ≤ n ∧ n < lo + cap) (same : m % cap = n % cap) : m = n := by
  obtain ⟨i, rfl⟩ := Nat.exists_eq_add_of_le left.1
  obtain ⟨j, rfl⟩ := Nat.exists_eq_add_of_le right.1
  have := Slots.offset_eq lo (i := i) (j := j) (by omega) (by omega) same
  omega

theorem index_eq_iff {behind ahead : Nat} (order : behind ≤ ahead) (near : ahead < behind + cap) :
    behind % cap = ahead % cap ↔ behind = ahead :=
  ⟨index_inj behind ⟨Nat.le_refl _, by omega⟩ ⟨order, near⟩, fun same => same ▸ rfl⟩

theorem next_eq_iff {behind ahead : Nat} (order : behind ≤ ahead) (near : ahead < behind + cap) :
    (ahead + 1) % cap = behind % cap ↔ ahead + 1 = behind + cap := by
  constructor
  next =>
    intro same
    have round : (ahead + 1) % cap = (behind + cap) % cap := by rw [same, Nat.add_mod_right]
    exact index_inj (behind + 1) ⟨by omega, by omega⟩ ⟨by omega, by omega⟩ round
  next =>
    intro full
    rw [full, Nat.add_mod_right]

def distance (cap behind ahead : Nat) : Nat :=
  if behind ≤ ahead then ahead - behind else cap - behind + ahead

theorem distance_index {behind ahead : Nat} (order : behind ≤ ahead)
    (near : ahead < behind + cap) : distance cap (behind % cap) (ahead % cap) = ahead - behind := by
  obtain ⟨gap, rfl⟩ := Nat.exists_eq_add_of_le order
  have gap_lt : gap < cap := by omega
  have behind_lt : behind % cap < cap := Nat.mod_lt _ (by omega)
  rw [distance, Nat.add_mod, Nat.mod_eq_of_lt gap_lt]
  by_cases within : behind % cap + gap < cap
  next =>
    rw [Nat.mod_eq_of_lt within, if_pos (by omega)]
    omega
  next =>
    have wrapped : (behind % cap + gap) % cap = behind % cap + gap - cap := by
      rw [Nat.mod_eq_sub_mod (by omega), Nat.mod_eq_of_lt (by omega)]
    rw [wrapped, if_neg (by omega)]
    omega

-- Cell of element `i` of a copy of `count` elements from cell `start` on, in two chunks: up to the end
-- of the ring and from its beginning.
def chunkSlot (cap start count i : Nat) : Nat :=
  let firstChunk := min count (cap - start)
  if i < firstChunk then start + i else i - firstChunk

theorem chunkSlot_index {n count i : Nat} (within : i < count) (fits : count ≤ cap) :
    chunkSlot cap (n % cap) count i = (n + i) % cap := by
  have start_lt : n % cap < cap := Nat.mod_lt _ (by omega)
  rw [← Nat.mod_add_mod, chunkSlot]
  generalize n % cap = start at start_lt ⊢
  by_cases before : start + i < cap
  next => rw [Nat.mod_eq_of_lt before, if_pos (by omega)]
  next =>
    rw [Nat.mod_eq_sub_mod (by omega), Nat.mod_eq_of_lt (by omega), if_neg (by omega)]
    omega

theorem index_firstChunk {n count i : Nat} (within : i < min count (cap - n % cap))
    (fits : count ≤ cap) : (n + i) % cap = n % cap + i := by
  rw [← chunkSlot_index (by omega : i < count) fits, chunkSlot, if_pos within]

theorem index_secondChunk {n count i : Nat} (within : i < count - min count (cap - n % cap))
    (fits : count ≤ cap) : (n + min count (cap - n % cap) + i) % cap = i := by
  rw [Nat.add_assoc, ← chunkSlot_index (by omega : _ < count) fits, chunkSlot, if_neg (by omega)]
  omega

section Copies

variable {left : α → α}

def copy (cap : Nat) (cells : Nat → α) (n : Nat) : List α → Nat → α
  | [] => cells
  | x :: xs => copy cap (Function.update cells (n % cap) x) (n + 1) xs

def move (left : α → α) (cap : Nat) (cells : Nat → α) (n : Nat) : Nat → List α × (Nat → α)
  | 0 => ([], cells)
  | count + 1 =>
    let later := move left cap (Function.update cells (n % cap) (left (cells (n % cap)))) (n + 1) count
    (cells (n % cap) :: later.1, later.2)

theorem copy_append (cells : Nat → α) (n : Nat) (xs ys : List α) :
    copy cap cells n (xs ++ ys) = copy cap (copy cap cells n xs) (n + xs.length) ys := by
  induction xs generalizing cells n with
  | nil => rfl
  | cons x xs ih =>
    rw [List.cons_append, copy, ih, copy, List.length_cons]
    congr 1
    omega

theorem move_add (cells : Nat → α) (n count more : Nat) :
    move left cap cells n (count + more) =
      let first := move left cap cells n count
      let later := move left cap first.2 (n + count) more
      (first.1 ++ later.1, later.2) := by
  induction count generalizing cells n with
  | zero => rw [Nat.zero_add]; rfl
  | succ count ih =>
    rw [Nat.succ_add, move, ih, Nat.add_assoc n 1 count, Nat.add_comm 1 count]
    rfl

theorem straight_succ {start n count : Nat}
    (straight : ∀ i < count + 1, (n + i) % cap = start + i) :
    n % cap = start ∧ ∀ i < count, (n + 1 + i) % cap = start + 1 + i := by
  refine ⟨straight 0 (Nat.succ_pos count), ?_⟩
  intro i within
  have next := straight (i + 1) (Nat.succ_lt_succ within)
  rw [← Nat.add_assoc] at next
  rw [Nat.add_right_comm, next]
  omega

theorem copyTo_eq_copy {start n : Nat} {xs : List α}
    (straight : ∀ i < xs.length, (n + i) % cap = start + i) (cells : Nat → α) :
    Slots.copyTo cells start xs = copy cap cells n xs := by
  induction xs generalizing cells start n with
  | nil => rfl
  | cons x xs ih =>
    obtain ⟨here, onward⟩ := straight_succ straight
    rw [Slots.copyTo, copy, here]
    exact ih onward _

theorem moveFrom_eq_move {start n count : Nat}
    (straight : ∀ i < count, (n + i) % cap = start + i) (cells : Nat → α) :
    Slots.moveFrom left cells start count = move left cap cells n count := by
  induction count generalizing cells start n with
  | zero => rfl
  | succ count ih =>
    obtain ⟨here, onward⟩ := straight_succ straight
    rw [Slots.moveFrom, move, here, ih onward]

theorem copyTo_chunks (cells : Nat → α) (n : Nat) {xs : List α} (fits : xs.length ≤ cap) :
    let firstChunk := min xs.length (cap - n % cap)
    Slots.copyTo (Slots.copyTo cells (n % cap) (xs.take firstChunk)) 0 (xs.drop firstChunk) =
      copy cap cells n xs := by
  intro firstChunk
  have length : (xs.take firstChunk).length = firstChunk :=
    List.length_take_of_le (Nat.min_le_left _ _)
  have first : Slots.copyTo cells (n % cap) (xs.take firstChunk) =
      copy cap cells n (xs.take firstChunk) := by
    refine copyTo_eq_copy ?_ cells
    intro i within
    rw [length] at within
    exact index_firstChunk within fits
  have second (cells : Nat → α) : Slots.copyTo cells 0 (xs.drop firstChunk) =
      copy cap cells (n + firstChunk) (xs.drop firstChunk) := by
    refine copyTo_eq_copy ?_ cells
    intro i within
    rw [List.length_drop] at within
    rw [Nat.zero_add]
    exact index_secondChunk within fits
  rw [first, second]
  have whole : copy cap cells n (xs.take firstChunk ++ xs.drop firstChunk) = _ :=
    copy_append cells n (xs.take firstChunk) (xs.drop firstChunk)
  rw [length, List.take_append_drop] at whole
  exact whole.symm

theorem moveFrom_chunks (left : α → α) (cells : Nat → α) (n : Nat) {count : Nat}
    (fits : count ≤ cap) :
    let firstChunk := min count (cap - n % cap)
    let first := Slots.moveFrom left cells (n % cap) firstChunk
    let second := Slots.moveFrom left first.2 0 (count - firstChunk)
    (first.1 ++ second.1, second.2) = move left cap cells n count := by
  intro firstChunk first second
  have first_eq : first = move left cap cells n firstChunk :=
    moveFrom_eq_move (fun i within => index_firstChunk within fits) cells
  have second_eq : second = move left cap first.2 (n + firstChunk) (count - firstChunk) :=
    moveFrom_eq_move (fun i within => by
      rw [Nat.zero_add]
      exact index_secondChunk within fits) first.2
  rw [second_eq, first_eq]
  calc _
    _ = move left cap cells n (firstChunk + (count - firstChunk)) :=
        (move_add cells n firstChunk (count - firstChunk)).symm
    _ = move left cap cells n count := by rw [Nat.add_sub_cancel' (Nat.min_le_left _ _)]

theorem ring_copy (cells : Nat → α) {lo n : Nat} {xs : List α} (order : lo ≤ n)
    (room : n + xs.length ≤ lo + cap) :
    Slots.ring (copy cap cells n xs) cap lo (n + xs.length - lo) =
      Slots.ring cells cap lo (n - lo) ++ xs := by
  induction xs generalizing cells n with
  | nil => simp [copy]
  | cons x xs ih =>
    rw [List.length_cons] at room ⊢
    have pushed : Slots.ring (Function.update cells ((lo + (n - lo)) % cap) x) cap lo (n - lo + 1) =
        Slots.ring cells cap lo (n - lo) ++ [x] := Slots.ring_push cells (by omega) x
    rw [Nat.add_sub_cancel' order] at pushed
    have rest := ih (Function.update cells (n % cap) x) (by omega : lo ≤ n + 1) (by omega)
    rw [show n + 1 - lo = n - lo + 1 by omega, pushed, List.append_assoc] at rest
    rw [copy, show n + (xs.length + 1) - lo = n + 1 + xs.length - lo by omega]
    exact rest

theorem ring_move (cells : Nat → α) {n count more : Nat} (room : count + more ≤ cap) :
    (move left cap cells n count).1 = Slots.ring cells cap n count ∧
      Slots.ring (move left cap cells n count).2 cap (n + count) more =
        Slots.ring cells cap (n + count) more := by
  induction count generalizing cells n with
  | zero => exact ⟨rfl, rfl⟩
  | succ count ih =>
    let cells' := Function.update cells (n % cap) (left (cells (n % cap)))
    obtain ⟨moved, behind⟩ := ih cells' (by omega : count + more ≤ cap)
    have ahead : Slots.ring cells' cap (n + 1 + 0) count = Slots.ring cells cap (n + 1 + 0) count :=
      Slots.ring_update_behind cells (by omega) _
    have after : Slots.ring cells' cap (n + 1 + count) more =
        Slots.ring cells cap (n + 1 + count) more := Slots.ring_update_behind cells (by omega) _
    rw [Nat.add_zero] at ahead
    rw [move, Slots.ring_cons, Slots.ring_mod, moved, ahead]
    refine ⟨rfl, ?_⟩
    rw [show n + (count + 1) = n + 1 + count by omega, behind, after]

end Copies

def cellsOf (cap n : Nat) : List Nat := (List.range n).map (· % cap)

theorem cellsOf_succ (n : Nat) : cellsOf cap (n + 1) = cellsOf cap n ++ [n % cap] := by
  simp [cellsOf, List.range_succ]

theorem next_mem_drop_cellsOf_iff (positive : 0 < cap) (n k : Nat) :
    n % cap ∈ (cellsOf cap n).drop k ↔ cap ≤ n - k := by
  simp only [List.mem_iff_getElem, List.length_drop, List.getElem_drop, cellsOf,
    List.getElem_map, List.getElem_range, List.length_map, List.length_range]
  constructor
  next =>
    rintro ⟨i, within, same⟩
    by_contra short
    have := index_inj k ⟨by omega, by omega⟩ ⟨by omega, by omega⟩ same
    omega
  next =>
    intro full
    refine ⟨n - cap - k, by omega, ?_⟩
    rw [show k + (n - cap - k) = n - cap by omega, ← Nat.add_mod_right (n - cap) cap,
      Nat.sub_add_cancel (by omega)]

def Window (cells : Nat → α) (cap lo hi : Nat) (holds : Nat → α → Prop) : Prop :=
  ∀ n, lo ≤ n → n < hi → holds n (cells (n % cap))

namespace Window

variable {cells : Nat → α} {lo hi : Nat} {holds holds' : Nat → α → Prop}

theorem imp (window : Window cells cap lo hi holds)
    (weaker : ∀ n x, lo ≤ n → n < hi → holds n x → holds' n x) :
    Window cells cap lo hi holds' :=
  fun n above below => weaker n _ above below (window n above below)

-- A store into the cell of a number less than a round ahead of `lo` is seen at that number only.
theorem update {m : Nat} (inside : lo ≤ m ∧ m < lo + cap) (short : hi ≤ lo + cap) {x : α}
    (stored : holds m x) (others : ∀ n, lo ≤ n → n < hi → n ≠ m → holds n (cells (n % cap))) :
    Window (Function.update cells (m % cap) x) cap lo hi holds := by
  intro n above below
  by_cases same : n = m
  next =>
    rw [same, Function.update_self]
    exact stored
  next =>
    rw [Function.update_of_ne]
    next => exact others n above below same
    next => exact fun meet => same (index_inj lo ⟨above, by omega⟩ inside meet)

theorem push (window : Window cells cap lo hi holds) (order : lo ≤ hi) (room : hi < lo + cap)
    {x : α} (stored : holds hi x) :
    Window (Function.update cells (hi % cap) x) cap lo (hi + 1) holds :=
  update ⟨order, room⟩ (by omega) stored fun n above below other => window n above (by omega)

theorem pop (window : Window cells cap lo hi holds) (short : hi ≤ lo + cap) (x : α) :
    Window (Function.update cells (lo % cap) x) cap (lo + 1) hi holds := by
  intro n above below
  rw [Function.update_of_ne]
  next => exact window n (by omega) below
  next =>
    intro meet
    have := index_inj lo ⟨by omega, by omega⟩ ⟨by omega, by omega⟩ meet
    omega

theorem ring_eq_drop {stream : List α}
    (window : Window cells cap lo stream.length fun n x => stream[n]? = some x) :
    Slots.ring cells cap lo (stream.length - lo) = stream.drop lo := by
  apply List.ext_getElem?
  intro i
  by_cases inside : i < stream.length - lo
  next =>
    rw [List.getElem?_drop, window (lo + i) (by omega) (by omega)]
    simp [Slots.ring, inside]
  next =>
    rw [List.getElem?_eq_none (by simpa using inside), List.getElem?_eq_none]
    simpa using inside

end Window

end Ring
