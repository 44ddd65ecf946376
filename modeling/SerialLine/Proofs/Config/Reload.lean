import SerialLine.Config
import SerialLine.Proofs.Json.Numbers
import SerialLine.Proofs.Json.Objects
/-!
# A saved configuration reloads as itself

What `save` writes, `load` reads back, field by field. Each value that is printed is taken by the
reader of its field: words and texts between quotes, null for a path that is not there, natural
numbers up to the limit of their reader. An object takes its members with them, wherever it is
nested. An absent path is printed as null, so the default of the field does not come back for it.

Only the timeout is a matter of its own. It is printed as a floating-point number of seconds, which
may round it, so `reload_saved` assumes that it comes back when it is printed and read alone.
-/

set_option autoImplicit false

namespace SerialLine

open Json (Reader Place Written)

/-- A timeout that is read alone is taken wherever it stands. -/
theorem Duration.reader_takes {text : List Char} {d : Duration}
    (h : Json.read (Duration.reader Place.nowhere) (String.ofList text) = .ok d) (place : Place) :
    (Duration.reader place).Takes text d := by
  obtain ⟨left, hread, hleft⟩ := Json.Reader.read_eq_ok.mp h
  obtain ⟨seconds, mid, hseconds, haccept⟩ := Json.Reader.exists_of_bind hread
  obtain ⟨n, mid', hnumber, hpure⟩ := Json.Reader.exists_of_bind hseconds
  cases hpure
  cases hd : Duration.ofBinary64 n.toBinary64 with
  | error reason =>
    rw [hd] at haccept
    cases haccept
  | ok d' =>
    rw [hd] at haccept
    cases haccept
    have htakes : Reader.binary64.Takes text n.toBinary64 :=
      (Json.Reader.anyNumber_takes hnumber hleft).bind rfl
    refine htakes.bind ?_
    rw [hd]
    rfl

theorem DataBits.reader_takes (bits : DataBits) (place : Place) :
    (DataBits.reader place).Takes (Nat.toDigits 10 bits.code) bits := by
  have hcode : bits.code < UInt8.size := by cases bits <;> decide
  have htakes := Json.Reader.natural_takes "u8" hcode (Nat.lt_trans hcode (by decide))
  refine htakes.bind ?_
  rw [DataBits.ofCode_code]
  rfl

theorem Parity.reader_takes (mode : Parity) : Parity.reader.Takes (Json.quote mode.key) mode :=
  Json.Reader.variant_takes (by cases mode <;> rfl)

theorem StopBits.reader_takes (length : StopBits) :
    StopBits.reader.Takes (Json.quote length.key) length :=
  Json.Reader.variant_takes (by cases length <;> rfl)

theorem FlowControl.reader_takes (mode : FlowControl) :
    FlowControl.reader.Takes (Json.quote mode.key) mode :=
  Json.Reader.variant_takes (by cases mode <;> rfl)

theorem WriteMode.reader_takes (mode : WriteMode) :
    WriteMode.reader.Takes (Json.quote mode.key) mode :=
  Json.Reader.variant_takes (by cases mode <;> rfl)

/-- A path is printed as a text, and as null if there is none. -/
def Json.Written.path : Option String → Written
  | some path => .text path
  | none => .null

theorem DevicePaths.toJson_eq (paths : DevicePaths) :
    paths.toJson = .object [("onboard", .path paths.onboard), ("mxp", .path paths.mxp),
      ("usb1", .path paths.usb1), ("usb2", .path paths.usb2)] := rfl

theorem Json.Written.path_takes (path? : Option String) (depth : Nat) :
    Reader.optionalText.Takes ((Written.path path?).pretty depth) path? := by
  cases path? with
  | none => exact Json.Reader.optionalText_takes_null
  | some path => exact Json.Reader.optionalText_takes_quote path

theorem DevicePaths.reader_takes (paths : DevicePaths) (depth : Nat) :
    DevicePaths.reader.Takes (paths.toJson.pretty depth) paths := by
  have hpath := fun path? ↦ Json.Written.path_takes path? (depth + 1)
  rw [paths.toJson_eq]
  exact Json.Reader.record_takes <|
    .cons rfl (by decide) ((hpath paths.onboard).bind rfl) <|
    .cons rfl (by decide) ((hpath paths.mxp).bind rfl) <|
    .cons rfl (by decide) ((hpath paths.usb1).bind rfl) <|
    .cons rfl (by decide) ((hpath paths.usb2).bind rfl) <| .nil _ _

/-- Settings are taken as they are printed, if their numbers fit, but for the timeout, which may be
read as another one. -/
theorem LineSettings.reader_takes_timeout (s : LineSettings) {timeout : Duration}
    (hrate : s.baudRate < UInt32.size) (hread : s.readBufferSize < UInt64.size)
    (hwrite : s.writeBufferSize < UInt64.size)
    (htimeout : ∀ place, (Duration.reader place).Takes (Written.float s.timeout.toBinary64).compact
      timeout) (depth : Nat) :
    LineSettings.reader.Takes (s.toJson.pretty depth) { s with timeout := timeout } := by
  have hrateTaken : (Reader.natural "u32" UInt32.size).Takes (Nat.toDigits 10 s.baudRate)
      s.baudRate := Json.Reader.natural_takes "u32" hrate (Nat.lt_trans hrate (by decide))
  have hreadTaken := Json.Reader.natural_takes "usize" hread hread
  have hwriteTaken := Json.Reader.natural_takes "usize" hwrite hwrite
  exact Json.Reader.record_takes <|
    .cons rfl (by decide) (hrateTaken.bind rfl) <|
    .cons rfl (by decide) ((s.dataBits.reader_takes _).bind rfl) <|
    .cons rfl (by decide) (s.parity.reader_takes.bind rfl) <|
    .cons rfl (by decide) (s.stopBits.reader_takes.bind rfl) <|
    .cons rfl (by decide) (s.flowControl.reader_takes.bind rfl) <|
    .cons rfl (by decide) ((htimeout _).bind rfl) <|
    .cons rfl (by decide) (s.writeMode.reader_takes.bind rfl) <|
    .cons rfl (by decide) (hreadTaken.bind rfl) <|
    .cons rfl (by decide) (hwriteTaken.bind rfl) <| .nil _ _

/-- Settings are taken as they are printed, if their numbers fit and the timeout is read back. -/
theorem LineSettings.reader_takes (s : LineSettings) (hrate : s.baudRate < UInt32.size)
    (hread : s.readBufferSize < UInt64.size) (hwrite : s.writeBufferSize < UInt64.size)
    (htimeout : Json.read (Duration.reader Place.nowhere)
      (String.ofList (Written.float s.timeout.toBinary64).compact) = .ok s.timeout) (depth : Nat) :
    LineSettings.reader.Takes (s.toJson.pretty depth) s :=
  s.reader_takes_timeout hrate hread hwrite (Duration.reader_takes htimeout) depth

/-! ### Files -/

/-- The bytes of an array from a place on, after those collected before. -/
theorem File.toList_loop (b : ByteArray) (i : Nat) (collected : List UInt8) :
    ByteArray.toList.loop b i collected = collected.reverse ++ b.data.toList.drop i := by
  fun_induction ByteArray.toList.loop b i collected with
  | case1 i collected h ih =>
    have hi : i < b.data.toList.length := h
    have hget : b.get! i = b.data.toList[i] := getElem!_pos b.data i h
    rw [ih, List.drop_eq_getElem_cons hi, hget, List.reverse_cons, List.append_assoc]
    rfl
  | case2 i collected h =>
    have hi : b.data.toList.length ≤ i := Nat.le_of_not_lt h
    rw [List.drop_eq_nil_of_le hi, List.append_nil]

/-- A file that holds a text is read as the text. -/
theorem File.readText_ofText (text : String) : (File.ofText text).readText = .ok text := by
  have hbytes : ByteArray.mk text.toUTF8.toList.toArray = text.toUTF8 := by
    rw [ByteArray.toList, toList_loop]
    rfl
  have hdecoded : String.fromUTF8? text.toUTF8 = some text := dif_pos text.isValidUTF8
  simp only [File.ofText, File.readText, hbytes, hdecoded]

namespace Config

variable {c : Config}

theorem reader_takes {s : LineSettings} (hdefaults : ∀ depth,
    LineSettings.reader.Takes (c.defaults.toJson.pretty depth) s) (depth : Nat) :
    reader.Takes (c.toJson.pretty depth) { c with defaults := s } :=
  Json.Reader.record_takes <|
    .cons rfl (by decide) ((c.devices.reader_takes _).bind rfl) <|
    .cons rfl (by decide) ((hdefaults _).bind rfl) <| .nil _ _

/-- What the text of a configuration is taken as is what is loaded once it is saved, if it passes
the checks. -/
theorem load_of_takes {c' : Config} (htakes : reader.Takes (c.toJson.pretty 0) c')
    (hvalid : c'.defaults.validate = .ok ()) :
    ofJson c.text = .ok c' ∧
      ∀ path, ∃ file, c.save .file = .ok file ∧ load path file = .ok c' := by
  have htext : ofJson c.text = .ok c' := by
    obtain ⟨left, hdone, hleft⟩ := @htakes [] [] (fun _ h ↦ by cases h) Json.Ends.nil
    rw [List.nil_append, List.append_nil] at hdone
    have hdecoded : Json.read reader c.text = .ok c' :=
      Json.Reader.read_eq_ok.mpr ⟨left, hdone, List.dropWhile_eq_nil_iff.mp hleft⟩
    simp only [ofJson, hdecoded, hvalid]
  refine ⟨htext, fun path ↦ ⟨File.ofText c.text, rfl, ?_⟩⟩
  simp only [load, File.readText_ofText, htext]

/-- A configuration that passes its checks, with numbers that fit, is what its text is read as, and
what is loaded once it is saved. -/
theorem reload_saved (hvalid : c.defaults.validate = .ok ())
    (hrate : c.defaults.baudRate < UInt32.size) (hread : c.defaults.readBufferSize < UInt64.size)
    (hwrite : c.defaults.writeBufferSize < UInt64.size)
    (htimeout : Json.read (Duration.reader Place.nowhere)
      (String.ofList (Written.float c.defaults.timeout.toBinary64).compact) =
        .ok c.defaults.timeout) :
    ofJson c.text = .ok c ∧
      ∀ path, ∃ file, c.save .file = .ok file ∧ load path file = .ok c :=
  load_of_takes (reader_takes (c.defaults.reader_takes hrate hread hwrite htimeout) 0) hvalid

/-- Nothing is lost of a configuration with absent paths, a path full of escapes, and the largest
size. -/
theorem reload_saved_escapes :
    let c : Config :=
      { devices := { onboard := none, mxp := some "/dev/\"\\\x01\tµ", usb2 := some "" }
        defaults :=
          { baudRate := 115200, dataBits := .five, stopBits := .onePointFive, timeout := ⟨125000000⟩
            readBufferSize := 18446744073709551615 } }
    ofJson c.text = .ok c ∧
      ∀ path, ∃ file, c.save .file = .ok file ∧ load path file = .ok c := by
  intro c
  exact reload_saved rfl (by decide) (by decide) (by decide) (by decide +kernel)

end Config

end SerialLine
