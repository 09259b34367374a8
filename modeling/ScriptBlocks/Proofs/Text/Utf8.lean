import ScriptBlocks.Proofs.Text.Search
import ScriptBlocks.Text.Utf8

/-!
# Counting bytes

The bytes of a text are the bytes of its parts one after the other (`Utf8.encode_append`), and
`Utf8.size` counts them (`Utf8.length_encode`), so that sizes add up along a text
(`Utf8.size_take_add_size_slice`).  The bytes of a part of a text are a range of the bytes of the
whole: the range between the sizes of what precedes its ends (`Utf8.encode_slice`).
-/

namespace ScriptBlocks.Utf8

/-! ### Sizes -/

theorem foldl_utf8Size (s : List Char) (n : Nat) :
    s.foldl (fun n c => n + c.utf8Size) n = n + size s := by
  unfold size
  induction s generalizing n with
  | nil => rfl
  | cons c s ih => rw [List.foldl_cons, List.foldl_cons, ih, ih (0 + c.utf8Size), Nat.zero_add,
      Nat.add_assoc]

theorem size_cons (c : Char) (s : List Char) : size (c :: s) = c.utf8Size + size s := by
  rw [size, List.foldl_cons, foldl_utf8Size, Nat.zero_add]

@[simp] theorem size_append (s t : List Char) : size (s ++ t) = size s + size t := by
  rw [size, List.foldl_append, foldl_utf8Size, ← size]

theorem encode_append (s t : List Char) : encode (s ++ t) = encode s ++ encode t :=
  List.flatMap_append

@[simp] theorem length_encode (s : List Char) : (encode s).length = size s := by
  induction s with
  | nil => rfl
  | cons c s ih =>
    rw [size_cons, ← ih, ← String.length_utf8EncodeChar c, ← List.length_append]
    rfl

theorem size_take_add_size_slice {s : List Char} {i j : Nat} (h : i ≤ j) :
    size (s.take i) + size (Text.slice s i j) = size (s.take j) := by
  rw [← size_append, Text.take_append_slice h]

/-! ### Parts of the bytes -/

theorem take_size_encode_append (s t : List Char) : (encode (s ++ t)).take (size s) = encode s := by
  rw [encode_append, ← length_encode, List.take_append_length]

theorem drop_size_encode_append (s t : List Char) : (encode (s ++ t)).drop (size s) = encode t := by
  rw [encode_append, ← length_encode, List.drop_append_length]

theorem extract_size_encode_append (s t u : List Char) :
    (encode (s ++ t ++ u)).extract (size s) (size (s ++ t)) = encode t := by
  rw [List.extract_eq_take_drop, List.append_assoc, drop_size_encode_append, size_append,
    Nat.add_sub_cancel_left, take_size_encode_append]

/-- The bytes of a slice stand, among the bytes of the text, between the sizes of what precedes
the ends of the slice. -/
theorem encode_slice {s : List Char} {i j : Nat} (h : i ≤ j) :
    (encode s).extract (size (s.take i)) (size (s.take j)) = encode (Text.slice s i j) := by
  have hslice := extract_size_encode_append (s.take i) (Text.slice s i j) (s.drop j)
  rwa [Text.take_append_slice h, List.take_append_drop] at hslice

theorem take_size_encode (s : List Char) (i : Nat) :
    (encode s).take (size (s.take i)) = encode (s.take i) := by
  have htake := take_size_encode_append (s.take i) (s.drop i)
  rwa [List.take_append_drop] at htake

theorem drop_size_encode (s : List Char) (i : Nat) :
    (encode s).drop (size (s.take i)) = encode (s.drop i) := by
  have hdrop := drop_size_encode_append (s.take i) (s.drop i)
  rwa [List.take_append_drop] at hdrop

/-! ### Sizes and indices -/

theorem length_le_size (s : List Char) : s.length ≤ size s := by
  induction s with
  | nil => exact Nat.le_refl 0
  | cons c s ih =>
    have := Char.utf8Size_pos c
    rw [size_cons, List.length_cons]
    omega

/-- Two indices of a text are at least as far apart in bytes as in characters. -/
theorem size_take_add_le {s : List Char} {i j : Nat} (hij : i ≤ j) (hj : j ≤ s.length) :
    size (s.take i) + (j - i) ≤ size (s.take j) := by
  rw [← size_take_add_size_slice hij, ← Text.length_slice hj]
  exact Nat.add_le_add_left (length_le_size _) _

/-- An index of a text is told by the number of bytes before it. -/
theorem eq_of_size_take_eq {s : List Char} {i j : Nat} (hi : i ≤ s.length) (hj : j ≤ s.length)
    (h : size (s.take i) = size (s.take j)) : i = j := by
  rcases Nat.lt_trichotomy i j with hlt | heq | hlt
  · have := size_take_add_le (Nat.le_of_lt hlt) hj
    omega
  · exact heq
  · have := size_take_add_le (Nat.le_of_lt hlt) hi
    omega

/-! ### ASCII -/

theorem utf8Size_of_lt {c : Char} (h : c.toNat < 0x80) : c.utf8Size = 1 := by
  rw [Char.utf8Size_eq_one_iff, UInt32.le_iff_toNat_le]
  exact Nat.le_of_lt_succ h

/-- A text of ASCII characters has one byte for each character. -/
theorem size_of_forall_lt {s : List Char} (h : ∀ c ∈ s, c.toNat < 0x80) : size s = s.length := by
  induction s with
  | nil => rfl
  | cons c s ih =>
    rw [size_cons, utf8Size_of_lt (h c List.mem_cons_self),
      ih fun d hd => h d (List.mem_cons_of_mem c hd), List.length_cons, Nat.add_comm]

end ScriptBlocks.Utf8
