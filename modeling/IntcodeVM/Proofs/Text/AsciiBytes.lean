import IntcodeVM.CommandLine.Files
import IntcodeVM.Proofs.Attempt
import IntcodeVM.Text.Utf8

namespace IntcodeVM.Text

open CommandLine (bytesOf)

variable {text : List Char}

def Ascii (text : List Char) : Prop := ∀ c ∈ text, c.toNat < 128

theorem toList_loop (bytes : ByteArray) (position : Nat) (done : List UInt8) :
    ByteArray.toList.loop bytes position done =
      done.reverse ++ bytes.data.toList.drop position := by
  fun_induction ByteArray.toList.loop with
  | case1 position done inside ih =>
    have listed : position < bytes.data.toList.length := inside
    have byte : bytes.get! position = bytes.data.toList[position] :=
      getElem!_pos bytes.data position inside
    rw [ih, List.drop_eq_getElem_cons listed, List.reverse_cons, List.append_assoc, byte]
    rfl
  | case2 position done ended =>
    have none : bytes.data.toList.drop position = [] :=
      List.drop_eq_nil_of_le (Nat.le_of_not_lt ended)
    rw [none, List.append_nil]

theorem bytesOf_ofList (text : List Char) :
    bytesOf (String.ofList text) = text.flatMap String.utf8EncodeChar := by
  rw [bytesOf, ByteArray.toList, toList_loop]
  exact List.toList_data_toByteArray

theorem bytesOf_ascii (ascii : Ascii text) :
    bytesOf (String.ofList text) = text.map fun c => UInt8.ofNat c.toNat := by
  rw [bytesOf_ofList]
  induction text with
  | nil => rfl
  | cons c rest ih =>
    have plain : c.val.toNat ≤ 127 := Nat.le_of_lt_succ (ascii c List.mem_cons_self)
    have byte : String.utf8EncodeChar c = [UInt8.ofNat c.toNat] := by
      simp only [String.utf8EncodeChar, plain, if_true]
      rfl
    rw [List.flatMap_cons, byte, ih fun d mem => ascii d (List.mem_cons_of_mem c mem)]
    rfl

theorem decodeUtf8From_ascii (ascii : Ascii text) {fuel : Nat} (enough : text.length ≤ fuel)
    (position : Nat) (done : List Char) :
    decodeUtf8From fuel position done (text.map fun c => UInt8.ofNat c.toNat) =
      .ok (done.reverse ++ text) := by
  induction text generalizing fuel position done with
  | nil => cases fuel <;> simp [decodeUtf8From]
  | cons c rest ih =>
    obtain ⟨fuel, rfl⟩ : ∃ less, fuel = less + 1 :=
      ⟨fuel - 1, by simp only [List.length_cons] at enough; omega⟩
    have code : c.toNat < 128 := ascii c List.mem_cons_self
    have byte : (UInt8.ofNat c.toNat).toNat = c.toNat := by
      rw [UInt8.toNat_ofNat']
      omega
    have lead : Utf8Lead.ofByte? (UInt8.ofNat c.toNat) = some ⟨c.toNat, 0, 0x80, 0xBF⟩ := by
      simp only [Utf8Lead.ofByte?, byte, code, if_true]
    have onward := ih (fun d mem => ascii d (List.mem_cons_of_mem c mem))
      (Nat.le_of_succ_le_succ enough) (position + 1) (c :: done)
    simp only [List.map_cons, decodeUtf8From, lead, Utf8Tail.collect, Char.ofNat_toNat,
      Nat.add_zero, onward]
    simp

theorem decodeUtf8_ascii (ascii : Ascii text) :
    decodeUtf8 (bytesOf (String.ofList text)) = .ok text := by
  rw [bytesOf_ascii ascii, decodeUtf8, List.length_map, decodeUtf8From_ascii ascii (Nat.le_refl _)]
  rfl

theorem unifyLineEnds_of_notMem (absent : '\r' ∉ text) : unifyLineEnds text = text := by
  fun_induction unifyLineEnds text with
  | case1 | case2 => simp at absent
  | case3 c rest _ _ ih => rw [ih fun mem => absent (List.mem_cons_of_mem c mem)]
  | case4 => rfl

end IntcodeVM.Text
