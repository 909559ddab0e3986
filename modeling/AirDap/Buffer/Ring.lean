import Mathlib.Data.List.Rotate

/-! A queue in a buffer of fixed size: its cells follow each other from the head on and go on at
the front of the buffer. -/
namespace Buffer

variable {α : Type} {n : ℕ}

/-- The buffer with `data` copied to the cells from `offset` on. -/
def store (buffer : Vector α n) (offset : ℕ) (data : List α) : Vector α n :=
  Vector.ofFn fun i =>
    if offset ≤ i.val then (data[i.val - offset]?).getD buffer[i] else buffer[i]

/-- A copy of `count` cells from `offset` on. -/
def load (buffer : Vector α n) (offset count : ℕ) : List α :=
  (buffer.toList.drop offset).take count

/-- The `count` elements of the queue whose first one is at `head`. -/
def ring (buffer : Vector α n) (head count : ℕ) : List α :=
  (buffer.toList.rotate head).take count

section Read

variable (buffer : Vector α n) {head count k : ℕ}

theorem length_load {offset : ℕ} (h : offset + count ≤ n) :
    (load buffer offset count).length = count := by
  rw [load, List.length_take, List.length_drop, buffer.length_toList]
  omega

theorem length_ring (hcount : count ≤ n) : (ring buffer head count).length = count := by
  simp [ring, hcount]

/-- The queue is read by two copies, up to the end of the buffer and from its front. -/
theorem load_append_load (hhead : head ≤ n) (hcount : count ≤ n) :
    load buffer head (min count (n - head)) ++ load buffer 0 (count - min count (n - head)) =
      ring buffer head count := by
  have hlength : buffer.toList.length = n := buffer.length_toList
  unfold ring load
  rw [List.rotate_eq_drop_append_take (by omega), List.take_append, List.drop_zero,
    List.take_take, List.length_drop, hlength]
  congr 1
  · rcases le_total count (n - head) with h | h
    · rw [min_eq_left h]
    · rw [min_eq_right h, List.take_of_length_le (by simp), List.take_of_length_le (by simp [h])]
  · congr 1
    omega

theorem ring_drop (hk : k ≤ count) (hcount : count ≤ n) :
    ring buffer ((head + k) % n) (count - k) = (ring buffer head count).drop k := by
  have hlength : (buffer.toList.rotate head).length = n := by simp
  unfold ring
  have hrotate : buffer.toList.rotate ((head + k) % n) = (buffer.toList.rotate head).rotate k := by
    rw [List.rotate_rotate]
    conv_rhs => rw [← List.rotate_mod, buffer.length_toList]
  rw [hrotate, List.rotate_eq_drop_append_take (by omega), List.drop_take,
    List.take_append_of_le_length (by simp; omega)]

end Read

section Write

variable (buffer : Vector α n) {head count : ℕ} {data : List α}

variable (offset : ℕ)

theorem getElem?_store (data : List α) {i : ℕ} (hi : i < n) :
    (store buffer offset data).toList[i]? =
      if offset ≤ i ∧ i - offset < data.length then data[i - offset]? else buffer.toList[i]? := by
  have hbuffer : buffer.toList[i]? = some buffer[i] := by simp [hi]
  have hstore : (store buffer offset data).toList[i]? = some (store buffer offset data)[i] := by
    simp [hi]
  rw [hstore, hbuffer]
  simp only [store, Vector.getElem_ofFn]
  by_cases hoffset : offset ≤ i
  · by_cases hdata : i - offset < data.length
    · simp [hoffset, hdata]
    · simp [hoffset, hdata]
  · simp [hoffset]

theorem getElem_store (data : List α) {i : ℕ} (hi : i < n) :
    (store buffer offset data)[i] =
      if offset ≤ i then (data[i - offset]?).getD buffer[i] else buffer[i] := by
  simp [store]

@[simp] theorem store_nil : store buffer offset [] = buffer := by
  ext i hi
  simp [getElem_store]

theorem store_store (data more : List α) :
    store (store buffer offset data) (offset + data.length) more =
      store buffer offset (data ++ more) := by
  ext i hi
  rw [getElem_store, getElem_store, getElem_store]
  by_cases hmore : offset + data.length ≤ i
  · rw [if_pos hmore, if_pos (by omega), if_pos (by omega),
      List.getElem?_append_right (by omega), List.getElem?_eq_none (l := data) (by omega),
      Nat.sub_sub]
    rfl
  · rw [if_neg hmore]
    by_cases hdata : offset ≤ i
    · rw [if_pos hdata, if_pos hdata, List.getElem?_append_left (by omega)]
    · rw [if_neg hdata, if_neg hdata]

theorem load_store {offset : ℕ} (hfits : offset + data.length ≤ n) :
    load (store buffer offset data) offset data.length = data := by
  apply List.ext_getElem?
  intro i
  unfold load
  by_cases hi : i < data.length
  · rw [List.getElem?_take_of_lt hi, List.getElem?_drop, getElem?_store _ _ _ (by omega),
      if_pos ⟨by omega, by omega⟩, Nat.add_sub_cancel_left]
  · rw [List.getElem?_eq_none (by simp; omega), List.getElem?_eq_none (by omega)]

theorem store_load {data : List α} :
    store (store buffer offset data) offset (load buffer offset data.length) = buffer := by
  ext i hi
  rw [getElem_store, getElem_store]
  unfold load
  by_cases hoffset : offset ≤ i
  · rw [if_pos hoffset, if_pos hoffset]
    by_cases hdata : i - offset < data.length
    · rw [List.getElem?_take_of_lt hdata, List.getElem?_drop, Nat.add_sub_cancel' hoffset]
      simp [hi]
    · rw [List.getElem?_eq_none (l := data) (by omega), List.getElem?_eq_none (by simp; omega)]
      rfl
  · rw [if_neg hoffset, if_neg hoffset]

theorem wrap_cases {a : ℕ} (h : a < n + n) : a < n ∧ a % n = a ∨ n ≤ a ∧ a % n + n = a := by
  rcases Nat.lt_or_ge a n with hlt | hge
  · exact .inl ⟨hlt, Nat.mod_eq_of_lt hlt⟩
  · refine .inr ⟨hge, ?_⟩
    rw [Nat.mod_eq_sub_mod hge, Nat.mod_eq_of_lt (by omega)]
    omega

theorem getElem?_ring {i : ℕ} (hi : i < count) (hcount : count ≤ n) :
    (ring buffer head count)[i]? = buffer.toList[(i + head) % n]? := by
  rw [ring, List.getElem?_take_of_lt hi, List.getElem?_rotate (by simp; omega),
    buffer.length_toList]

/-- Elements that still fit are added by two copies, up to the end of the buffer and from its
front. -/
theorem ring_store (hhead : head < n) (hfits : count + data.length ≤ n) :
    ring (store (store buffer ((head + count) % n)
      (data.take (min data.length (n - (head + count) % n)))) 0
        (data.drop (min data.length (n - (head + count) % n)))) head (count + data.length) =
      ring buffer head count ++ data := by
  apply List.ext_getElem?
  intro i
  have hlength := @length_ring _ _ buffer head count (by omega)
  by_cases hi : i < count + data.length
  · have hposition := wrap_cases (n := n) (a := i + head) (by omega)
    have htail := wrap_cases (n := n) (a := head + count) (by omega)
    have hlt : (i + head) % n < n := Nat.mod_lt _ (by omega)
    rw [getElem?_ring _ hi hfits, getElem?_store _ _ _ hlt, getElem?_store _ _ _ hlt]
    by_cases hold : i < count
    · rw [List.getElem?_append_left (by omega), getElem?_ring _ hold (by omega)]
      -- a cell of the old queue is in neither copy
      rw [if_neg (by simp; omega), if_neg (by simp; omega)]
    · rw [List.getElem?_append_right (by omega), hlength]
      by_cases hend : i - count < n - (head + count) % n
      · rw [if_neg (by simp; omega), if_pos (by simp; omega), List.getElem?_take_of_lt (by omega)]
        congr 1
        omega
      · rw [if_pos (by simp; omega), List.getElem?_drop]
        congr 1
        omega
  · rw [List.getElem?_eq_none (by rw [length_ring _ hfits]; omega),
      List.getElem?_eq_none (by simp; omega)]

end Write
end Buffer
