/-
  Reading a text by its characters.

  A text is kept in bytes, and finding its characters takes a search for each one.  The bytes
  of a text in ASCII are its characters one by one, so what is read from such a text is what is
  read from these, and can be computed without the search.
-/
import HpcBlueprint.Yaml.Serial

namespace HpcBlueprint

/-! ## Characters of bytes -/

namespace Text

variable {s : String}

/-- The bytes of a text, in a list. -/
def bytes (s : String) : List UInt8 := s.toByteArray.data.toList

/-- All bytes of a text are below the ones that begin longer characters. -/
def IsAscii (s : String) : Prop := ∀ byte ∈ bytes s, byte < 128

instance : DecidablePred IsAscii := fun _ => List.decidableBAll _ _

/-- The characters of bytes of which each is one. -/
def ascii (bytes : List UInt8) : List Char := bytes.map fun byte => Char.ofNat byte.toNat

theorem utf8EncodeChar_ofNat {byte : UInt8} (h : byte < 128) :
    String.utf8EncodeChar (Char.ofNat byte.toNat) = [byte] := by
  have hbyte : byte.toNat < 128 := h
  have hvalid : byte.toNat.isValidChar := Or.inl (by omega)
  have hval : (Char.ofNat byte.toNat).val.toNat = byte.toNat := by
    rw [Char.ofNat, dif_pos hvalid]
    rfl
  simp only [String.utf8EncodeChar, hval]
  rw [if_pos (by omega), UInt8.ofNat_toNat]

theorem flatMap_utf8EncodeChar_ascii {bytes : List UInt8} (h : ∀ byte ∈ bytes, byte < 128) :
    (ascii bytes).flatMap String.utf8EncodeChar = bytes := by
  induction bytes with
  | nil => rfl
  | cons byte rest ih =>
      obtain ⟨hbyte, hrest⟩ := List.forall_mem_cons.mp h
      rw [ascii, List.map_cons, List.flatMap_cons, ← ascii, ih hrest, utf8EncodeChar_ofNat hbyte,
        List.singleton_append]

/-- A text in ASCII has its bytes for characters. -/
theorem toList_of_isAscii (h : IsAscii s) : s.toList = ascii (bytes s) := by
  have hsame : String.ofList (ascii (bytes s)) = s := by
    rw [← String.toByteArray_inj, String.toByteArray_ofList, List.utf8Encode,
      flatMap_utf8EncodeChar_ascii h]
    exact ByteArray.ext (by simp [bytes])
  rw [← hsame, String.toList_ofList, hsame]

end Text

/-! ## Documents of characters -/

namespace Yaml

/-- The certain tokens of characters. -/
def lexChars (cs : List Char) : List Lexeme :=
  let chars := match cs with
    | '\ufeff' :: rest => rest
    | chars => chars
  if chars.all isAllowed then Lexer.run (chars.length + 1) (Lexer.ofText chars) else []

namespace Stream

/-- The first document of tokens. -/
def ofTokens (tokens : List Lexeme) : Stream :=
  match tokens.head? with
  | none => ⟨.inl .broken, false⟩
  | some first =>
    match first.token with
    | .streamEnd => ⟨.inr first.start, true⟩
    | .versionDirective .. | .tagDirective .. | .documentStart =>
      match directives tokens false [] with
      | some (handles, ⟨.documentStart, _, _⟩ :: rest) => content handles rest true
      | _ => ⟨.inl .broken, false⟩
    | _ => content [] tokens false

/-- What is read from a text in ASCII is what is read from its bytes. -/
theorem ofText_of_isAscii {text : String} (h : Text.IsAscii text) :
    ofText text = ofTokens (lexChars (Text.ascii (Text.bytes text))) := by
  rw [← Text.toList_of_isAscii h]
  rfl

end Stream
end Yaml
end HpcBlueprint
