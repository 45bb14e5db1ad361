import SchemaInterfaces.Text.Lossy

/-!
# Bytes of a text

The bytes of a text are decoded to the text (`ofBytesLossy_toUTF8`). Character by character: the
first byte tells how many follow and within which bounds, and these are the bounds in which the
encoding of a character lies.
-/
namespace SchemaInterfaces.Text

/-! ### Lists of bytes -/

theorem toList_loop (bytes : ByteArray) (i : Nat) (read : List UInt8) :
    ByteArray.toList.loop bytes i read = read.reverse ++ bytes.data.toList.drop i := by
  fun_induction ByteArray.toList.loop bytes i read with
  | case1 i read inside ih =>
    have within : i < bytes.data.toList.length := by simpa using inside
    have byte : bytes.get! i = bytes.data.toList[i] := by
      rw [show bytes.get! i = bytes.data[i]! by cases bytes; rfl, getElem!_pos bytes.data i inside,
        Array.getElem_toList]
    rw [ih, List.drop_eq_getElem_cons within, byte, List.reverse_cons, List.append_assoc]
    rfl
  | case2 i read outside =>
    rw [List.drop_eq_nil_of_le (by simpa using Nat.le_of_not_lt outside), List.append_nil]

theorem toList_toByteArray (bytes : List UInt8) : bytes.toByteArray.toList = bytes := by
  rw [ByteArray.toList, toList_loop, List.toList_data_toByteArray]
  rfl

theorem toList_toUTF8 (text : String) :
    text.toUTF8.toList = text.toList.flatMap String.utf8EncodeChar := by
  rw [String.toUTF8, ← String.utf8Encode_toList, List.utf8Encode, toList_toByteArray]

/-! ### One character -/

theorem continuation_append (bytes rest : List Nat)
    (within : ∀ byte ∈ bytes, 0x80 ≤ byte ∧ byte ≤ 0xBF) :
    continuation bytes.length 0x80 0xBF (bytes ++ rest) = bytes := by
  induction bytes with
  | nil => rw [List.length_nil, continuation]
  | cons byte bytes ih =>
    obtain ⟨here, others⟩ := List.forall_mem_cons.mp within
    rw [List.length_cons, List.cons_append, continuation, if_pos here, ih others]

/-- A first byte is decoded with the bytes that follow it, if the first of them lies within its
bounds. -/
theorem decodeOne_of_following {lead low high byte : Nat} {bytes : List Nat} (rest : List Nat)
    (long : 0x80 ≤ lead) (following : following? lead = some (bytes.length + 1, low, high))
    (bounds : low ≤ byte ∧ byte ≤ high)
    (within : ∀ byte ∈ bytes, 0x80 ≤ byte ∧ byte ≤ 0xBF) :
    decodeOne lead (byte :: bytes ++ rest) =
      (Char.ofNat ((byte :: bytes).foldl (fun code byte => code * 0x40 + byte % 0x40)
        (lead % Nat.pow 2 (6 - (bytes.length + 1)))), bytes.length + 1) := by
  have taken :
      continuation (bytes.length + 1) low high (byte :: bytes ++ rest) = byte :: bytes := by
    rw [List.cons_append, continuation, if_pos bounds, continuation_append bytes rest within]
  rw [decodeOne, if_neg (by omega), following]
  simp only [taken, List.length_cons, if_true]

/-- A character is decoded from its bytes. -/
theorem decodeLossy_of_decodeOne {lead : Nat} {bytes rest : List Nat} {c : Char}
    (decoded : decodeOne lead (bytes ++ rest) = (c, bytes.length)) :
    decodeLossy (lead :: (bytes ++ rest)) = c :: decodeLossy rest := by
  rw [decodeLossy, decoded]
  simp only [List.drop_left]

/-! The bytes of a character by its number. -/

theorem decodeOne_two {n : Nat} (low : 0x80 ≤ n) (high : n < 0x800) (rest : List Nat) :
    decodeOne (n / 64 % 32 + 192) ([n % 64 + 128] ++ rest) = (Char.ofNat n, 1) := by
  have following : following? (n / 64 % 32 + 192) = some (1, 0x80, 0xBF) := by
    rw [following?, if_pos (by omega)]
  have code : (n / 64 % 32 + 192) % 32 * 64 + (n % 64 + 128) % 64 = n := by omega
  rw [decodeOne_of_following rest (by omega) following (by omega) (by simp)]
  exact congrArg (fun code => (Char.ofNat code, 1)) code

theorem decodeOne_three {n : Nat} (low : 0x800 ≤ n) (high : n < 0x10000)
    (valid : n < 0xD800 ∨ 0xDFFF < n) (rest : List Nat) :
    decodeOne (n / 4096 % 16 + 224) ([n / 64 % 64 + 128, n % 64 + 128] ++ rest) =
      (Char.ofNat n, 2) := by
  obtain ⟨least, most, following, bounds⟩ : ∃ least most,
      following? (n / 4096 % 16 + 224) = some (2, least, most) ∧
        least ≤ n / 64 % 64 + 128 ∧ n / 64 % 64 + 128 ≤ most := by
    rw [following?, if_neg (by omega)]
    split
    · exact ⟨_, _, rfl, by omega, by omega⟩
    · split
      · exact ⟨_, _, rfl, by omega, by omega⟩
      · rw [if_pos (by omega)]
        exact ⟨_, _, rfl, by omega, by omega⟩
  have code : ((n / 4096 % 16 + 224) % 16 * 64 + (n / 64 % 64 + 128) % 64) * 64 +
      (n % 64 + 128) % 64 = n := by omega
  rw [decodeOne_of_following rest (by omega) following bounds
    (List.forall_mem_singleton.mpr (by omega))]
  exact congrArg (fun code => (Char.ofNat code, 2)) code

theorem decodeOne_four {n : Nat} (low : 0x10000 ≤ n) (high : n < 0x110000) (rest : List Nat) :
    decodeOne (n / 262144 % 8 + 240)
        ([n / 4096 % 64 + 128, n / 64 % 64 + 128, n % 64 + 128] ++ rest) = (Char.ofNat n, 3) := by
  obtain ⟨least, most, following, bounds⟩ : ∃ least most,
      following? (n / 262144 % 8 + 240) = some (3, least, most) ∧
        least ≤ n / 4096 % 64 + 128 ∧ n / 4096 % 64 + 128 ≤ most := by
    rw [following?, if_neg (by omega), if_neg (by omega), if_neg (by omega), if_neg (by omega)]
    split
    · exact ⟨_, _, rfl, by omega, by omega⟩
    · split
      · exact ⟨_, _, rfl, by omega, by omega⟩
      · rw [if_pos (by omega)]
        exact ⟨_, _, rfl, by omega, by omega⟩
  have code : (((n / 262144 % 8 + 240) % 8 * 64 + (n / 4096 % 64 + 128) % 64) * 64 +
      (n / 64 % 64 + 128) % 64) * 64 + (n % 64 + 128) % 64 = n := by omega
  rw [decodeOne_of_following rest (by omega) following bounds
    (List.forall_mem_cons.mpr ⟨by omega, List.forall_mem_singleton.mpr (by omega)⟩)]
  exact congrArg (fun code => (Char.ofNat code, 3)) code

theorem toNat_ofNat {n : Nat} (small : n < 256) : (UInt8.ofNat n).toNat = n := by
  rw [UInt8.toNat_ofNat', Nat.mod_eq_of_lt small]

theorem decodeLossy_utf8EncodeChar (c : Char) (rest : List Nat) :
    decodeLossy ((String.utf8EncodeChar c).map UInt8.toNat ++ rest) = c :: decodeLossy rest := by
  have valid : c.toNat < 0xD800 ∨ 0xDFFF < c.toNat ∧ c.toNat < 0x110000 := c.valid
  have number : c.val.toNat = c.toNat := rfl
  rw [String.utf8EncodeChar, number]
  conv => rhs; rw [← Char.ofNat_toNat c]
  generalize c.toNat = n at valid ⊢
  split
  next one =>
    rw [List.map_singleton, toNat_ofNat (by omega)]
    exact decodeLossy_of_decodeOne (by rw [decodeOne, if_pos (by omega)]; rfl)
  next more =>
    split
    next two =>
      rw [List.map_cons, List.map_singleton, toNat_ofNat (by omega), toNat_ofNat (by omega)]
      exact decodeLossy_of_decodeOne (decodeOne_two (by omega) (by omega) rest)
    next more =>
      split
      next three =>
        rw [List.map_cons, List.map_cons, List.map_singleton, toNat_ofNat (by omega),
          toNat_ofNat (by omega), toNat_ofNat (by omega)]
        exact decodeLossy_of_decodeOne
          (decodeOne_three (by omega) (by omega) (valid.imp_right And.left) rest)
      next four =>
        rw [List.map_cons, List.map_cons, List.map_cons, List.map_singleton,
          toNat_ofNat (by omega), toNat_ofNat (by omega), toNat_ofNat (by omega),
          toNat_ofNat (by omega)]
        exact decodeLossy_of_decodeOne (decodeOne_four (by omega) (by omega) rest)

/-! ### Texts -/

theorem ofBytesLossy_toUTF8 (text : String) : ofBytesLossy text.toUTF8 = text := by
  have decoded (characters : List Char) :
      decodeLossy ((characters.flatMap String.utf8EncodeChar).map UInt8.toNat) = characters := by
    induction characters with
    | nil => rw [List.flatMap_nil, List.map_nil, decodeLossy]
    | cons c rest ih =>
      rw [List.flatMap_cons, List.map_append, decodeLossy_utf8EncodeChar, ih]
  rw [ofBytesLossy, toList_toUTF8, decoded, String.ofList_toList]

end SchemaInterfaces.Text
