import ArtifactFlow.Catalog.Codec
import ArtifactFlow.Proofs.Json.RoundTrip
import ArtifactFlow.Value.Text

/-!
Payloads through their bytes and back. JSON gives back every value that it can hold, however it is
laid out, and plain text gives back every string.
-/

namespace ArtifactFlow

theorem Codec.decode_toUTF8 (codec : Codec) (text : String) :
    codec.decode text.toUTF8 = codec.ofText text := by
  have hread : String.fromUTF8? text.toUTF8 = some text := dif_pos text.isValidUTF8
  rw [decode, hread]

/-- Plain text comes back as it was. -/
theorem Codec.decode_of_encode_plain {options : Mapping} {v : Value} {bytes : ByteArray}
    (h : plain.encode options v = .ok bytes) : plain.decode bytes = .ok v := by
  cases v with
  | string s =>
      obtain rfl := Except.ok.inj h
      exact decode_toUTF8 plain s
  | null | bool | int | float | list | mapping => cases h

theorem Codec.ofText_json {text : String} {v : Value} (h : Json.parseString? text = some v) :
    (structured .json).ofText text = .ok v := by
  rw [ofText, Format.parse]
  simp only [h]
  rfl

theorem Codec.ofText_toText_json {v : Value} (textual : v.Textual 127) (options : Mapping) :
    ∃ text, (structured .json).toText options v = .ok text ∧
      (structured .json).ofText text = .ok v := by
  refine ⟨_, rfl, ofText_json ?_⟩
  split
  · exact Json.parseString?_prettyString textual
  · exact Json.parseString?_compactString textual

/-- JSON text of a value is read as the same value, with its keys in the same order, whether it
comes from a payload or from a word, and plain text of a string as the same string. -/
theorem Codec.decode_encode :
    (∀ v : Value, v.Textual 127 →
      (∀ options, (structured .json).encode options v >>= (structured .json).decode = .ok v) ∧
      Value.ofWord (Json.compactString v) = v) ∧
    ∀ text options, plain.encode options (.string text) >>= plain.decode = .ok (.string text) := by
  refine ⟨fun v textual => ⟨fun options => ?_, ?_⟩, fun text _ => decode_toUTF8 plain text⟩
  · obtain ⟨text, htext, hv⟩ := ofText_toText_json textual options
    rw [encode, htext]
    exact (decode_toUTF8 _ text).trans hv
  · rw [Value.ofWord, Json.parseString?_compactString textual, Option.getD_some]

namespace Ledger

/-- The largest and the least number that fit, marks to escape, and containers that are empty. -/
def page : Value :=
  .mapping [("sums", .list [.int 18446744073709551615, .int (-9223372036854775808), .int 0]),
    ("a \"note\"", .string "back\\slash\n\x01"), ("", .null),
    ("blank", .mapping [("lines", .list []), ("names", .mapping [])])]

theorem textual : page.Textual 127 := by
  refine .mapping (by simp [Fields.Distinct, Fields.keys]) ?_
  simp only [List.forall_mem_cons, List.not_mem_nil, false_imp_iff, implies_true, and_true]
  refine ⟨.list ?_, .string _, .null, .mapping (by simp [Fields.Distinct, Fields.keys]) ?_⟩
  · simp only [List.forall_mem_cons, List.not_mem_nil, false_imp_iff, implies_true, and_true]
    exact ⟨.int (by decide) (by decide), .int (by decide) (by decide), .int (by decide) (by decide)⟩
  · simp only [List.forall_mem_cons, List.not_mem_nil, false_imp_iff, implies_true, and_true]
    exact ⟨.list (by simp), .mapping List.nodup_nil (by simp)⟩

end Ledger

open Ledger in
theorem Codec.decode_encode_ledger : page.Textual 127 ∧
    (∀ options, (structured .json).encode options page >>= (structured .json).decode = .ok page) ∧
    Value.ofWord (Json.compactString page) = page ∧
    plain.encode [] (.string "1\n") >>= plain.decode = .ok (.string "1\n") :=
  ⟨textual, (decode_encode.1 page textual).1, (decode_encode.1 page textual).2,
    decode_encode.2 "1\n" []⟩

end ArtifactFlow
