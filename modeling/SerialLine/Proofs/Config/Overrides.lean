import SerialLine.Proofs.Config.Reload
import SerialLine.Proofs.Json.Schema
/-!
# A partial configuration is the default with overrides

Whatever an object gives for a configuration replaces that part of the default, and nothing else
changes: neither the order of the members counts, nor what stands under unknown keys, at any of the
three levels. A key that is known and given twice makes the text malformed, even if one of the two
values alone would do, or neither.
-/

set_option autoImplicit false

namespace SerialLine

open Json (Reader Place IsText IsObject IsNumber IsValue Members Blank)

/-! ### What a text may give -/

/-- Null, or a text between quotes. -/
def IsPath : Option String → List Char → Prop
  | none, v => v = ['n', 'u', 'l', 'l']
  | some path, v => IsText path v

/-- One of the words of a list, alone or as the only key of an object with the value null. -/
def IsWord (key : String) (v : List Char) : Prop :=
  IsText key v ∨ IsObject [(key, ['n', 'u', 'l', 'l'])] v

/-- A natural number below a limit, in digits. -/
def IsNatural (limit n : Nat) (v : List Char) : Prop := n < limit ∧ v = Nat.toDigits 10 n

/-- A number of seconds in any notation, with an accepted value. -/
def Duration.IsSeconds (d : Duration) (v : List Char) : Prop :=
  ∃ l n, IsNumber l v ∧ l.value = .ok n ∧ Duration.ofBinary64 n.toBinary64 = .ok d

/-- Any of the four ports, each with a path or null. -/
def DevicePaths.schema : Json.Schema DevicePaths where
  Key := Port
  keys := Port.all
  mem_keys := Port.mem_all
  name := Port.key
  name_injective := by
    intro p q h
    cases p <;> cases q <;> first | rfl | exact absurd h (by decide)
  Value _ := Option String
  Spelled _ := IsPath
  replace given paths :=
    { onboard := (given .onboard).getD paths.onboard
      mxp := (given .mxp).getD paths.mxp
      usb1 := (given .usb1).getD paths.usb1
      usb2 := (given .usb2).getD paths.usb2 }
  replace_none _ := rfl
  replace_some given k a s h := by cases k <;> simp [h]

namespace LineSettings

/-- The nine settings. -/
inductive Key
  | baudRate
  | dataBits
  | parity
  | stopBits
  | flowControl
  | timeout
  | writeMode
  | readBufferSize
  | writeBufferSize
  deriving DecidableEq

namespace Key

def all : List Key :=
  [.baudRate, .dataBits, .parity, .stopBits, .flowControl, .timeout, .writeMode, .readBufferSize,
    .writeBufferSize]

def name : Key → String
  | .baudRate => "baud_rate"
  | .dataBits => "data_bits"
  | .parity => "parity"
  | .stopBits => "stop_bits"
  | .flowControl => "flow_control"
  | .timeout => "timeout"
  | .writeMode => "write_mode"
  | .readBufferSize => "read_buffer_size"
  | .writeBufferSize => "write_buffer_size"

abbrev Value : Key → Type
  | .baudRate => Nat
  | .dataBits => DataBits
  | .parity => Parity
  | .stopBits => StopBits
  | .flowControl => FlowControl
  | .timeout => Duration
  | .writeMode => WriteMode
  | .readBufferSize => Nat
  | .writeBufferSize => Nat

/-- The type and the range that the field accepts. -/
def Spelled : (k : Key) → k.Value → List Char → Prop
  | .baudRate, rate, v => IsNatural UInt32.size rate v
  | .dataBits, bits, v => v = Nat.toDigits 10 bits.code
  | .parity, mode, v => IsWord mode.key v
  | .stopBits, length, v => IsWord length.key v
  | .flowControl, mode, v => IsWord mode.key v
  | .timeout, limit, v => limit.IsSeconds v
  | .writeMode, mode, v => IsWord mode.key v
  | .readBufferSize, bytes, v => IsNatural UInt64.size bytes v
  | .writeBufferSize, bytes, v => IsNatural UInt64.size bytes v

end Key

def schema : Json.Schema LineSettings where
  Key := Key
  keys := Key.all
  mem_keys k := by cases k <;> decide
  name := Key.name
  name_injective := by
    intro j k h
    cases j <;> cases k <;> first | rfl | exact absurd h (by decide)
  Value := Key.Value
  Spelled := Key.Spelled
  replace given s :=
    { baudRate := (given .baudRate).getD s.baudRate
      dataBits := (given .dataBits).getD s.dataBits
      parity := (given .parity).getD s.parity
      stopBits := (given .stopBits).getD s.stopBits
      flowControl := (given .flowControl).getD s.flowControl
      timeout := (given .timeout).getD s.timeout
      writeMode := (given .writeMode).getD s.writeMode
      readBufferSize := (given .readBufferSize).getD s.readBufferSize
      writeBufferSize := (given .writeBufferSize).getD s.writeBufferSize }
  replace_none _ := rfl
  replace_some given k a s h := by cases k <;> simp [h]

end LineSettings

namespace Config

/-- The two parts of a configuration. -/
inductive Part
  | devices
  | defaults
  deriving DecidableEq

namespace Part

def name : Part → String
  | .devices => "devices"
  | .defaults => "defaults"

abbrev Value : Part → Type
  | .devices => DevicePaths
  | .defaults => LineSettings

/-- Each part is an object and stands for its default with what it gives replaced. -/
def Spelled : (part : Part) → part.Value → List Char → Prop
  | .devices, paths, v => ∃ ms given, IsObject ms v ∧ DevicePaths.schema.Gives given ms ∧
      paths = DevicePaths.schema.replace given {}
  | .defaults, settings, v => ∃ ms given, IsObject ms v ∧ LineSettings.schema.Gives given ms ∧
      settings = LineSettings.schema.replace given {}

end Part

def schema : Json.Schema Config where
  Key := Part
  keys := [.devices, .defaults]
  mem_keys part := by cases part <;> decide
  name := Part.name
  name_injective := by
    intro j k h
    cases j <;> cases k <;> first | rfl | exact absurd h (by decide)
  Value := Part.Value
  Spelled := Part.Spelled
  replace given c :=
    { devices := (given .devices).getD c.devices
      defaults := (given .defaults).getD c.defaults }
  replace_none _ := rfl
  replace_some given k a s h := by cases k <;> simp [h]

end Config

/-! ### What the fields take -/

theorem IsPath.takes {path? : Option String} {v : List Char} (h : IsPath path? v) :
    Reader.optionalText.Takes v path? := by
  cases path? with
  | none =>
    obtain rfl : v = _ := h
    exact Json.Reader.optionalText_takes_null
  | some path => exact Json.Reader.optionalText_takes_text h

theorem IsWord.takes {α : Type} {variants : List (String × α)} {key : String} {a : α}
    {v : List Char} (h : IsWord key v) (hfind : variants.find? (·.1 = key) = some (key, a)) :
    (Reader.variant variants).Takes v a := by
  rcases h with htext | hobject
  · exact Json.Reader.variant_takes_text hfind htext
  · exact Json.Reader.variant_takes_object hfind hobject

theorem IsNatural.takes {expected : String} {limit n : Nat} {v : List Char} (h : IsNatural limit n v)
    (hlimit : limit ≤ UInt64.size) : (Reader.natural expected limit).Takes v n := by
  obtain ⟨hn, rfl⟩ := h
  exact Json.Reader.natural_takes expected hn (Nat.lt_of_lt_of_le hn hlimit)

theorem Duration.IsSeconds.takes {d : Duration} {v : List Char} (h : d.IsSeconds v)
    (place : Place) : (Duration.reader place).Takes v d := by
  obtain ⟨l, n, hnumber, hvalue, hd⟩ := h
  have htakes : Reader.binary64.Takes v n.toBinary64 :=
    (Json.Reader.anyNumber_takes_number hnumber hvalue).bind rfl
  refine htakes.bind ?_
  rw [hd]
  rfl

/-- A value that is passed on or refused takes nothing. -/
theorem accept_still {α : Type} (place : Place) (accepted : Except Refusal α) :
    (accept place accepted).Still := by
  cases accepted with
  | ok a => exact Json.Reader.still_pure a
  | error reason =>
    intro cs a left h
    cases h

theorem DevicePaths.schema_readBy : DevicePaths.schema.ReadBy DevicePaths.fields where
  names_eq := rfl
  takes k := by
    cases k <;> exact ⟨_, rfl, fun a v s h ↦ Json.Reader.Takes.bind (IsPath.takes h) rfl⟩
  whole := by
    have hpath : ∀ set : Option String → DevicePaths, (do
        let path ← Reader.optionalText
        pure (set path) : Reader DevicePaths).Whole :=
      fun _ ↦ Json.Reader.optionalText_whole.bind fun _ ↦ Json.Reader.still_pure _
    simp only [Json.Reader.WholeFields, DevicePaths.fields, List.forall_mem_cons]
    exact ⟨fun _ _ ↦ hpath _, fun _ _ ↦ hpath _, fun _ _ ↦ hpath _, fun _ _ ↦ hpath _,
      fun _ h ↦ absurd h List.not_mem_nil⟩

theorem LineSettings.schema_readBy : LineSettings.schema.ReadBy LineSettings.fields where
  names_eq := rfl
  takes k := by
    cases k with
    | baudRate => exact ⟨_, rfl, fun a v s h ↦ Json.Reader.Takes.bind (h.takes (by decide)) rfl⟩
    | dataBits =>
      refine ⟨_, rfl, fun a v s h ↦ ?_⟩
      obtain rfl : v = _ := h
      exact Json.Reader.Takes.bind (DataBits.reader_takes a _) rfl
    | parity =>
      exact ⟨_, rfl, fun a v s h ↦ Json.Reader.Takes.bind (h.takes (by cases a <;> rfl)) rfl⟩
    | stopBits =>
      exact ⟨_, rfl, fun a v s h ↦ Json.Reader.Takes.bind (h.takes (by cases a <;> rfl)) rfl⟩
    | flowControl =>
      exact ⟨_, rfl, fun a v s h ↦ Json.Reader.Takes.bind (h.takes (by cases a <;> rfl)) rfl⟩
    | timeout => exact ⟨_, rfl, fun a v s h ↦ Json.Reader.Takes.bind (h.takes _) rfl⟩
    | writeMode =>
      exact ⟨_, rfl, fun a v s h ↦ Json.Reader.Takes.bind (h.takes (by cases a <;> rfl)) rfl⟩
    | readBufferSize =>
      exact ⟨_, rfl, fun a v s h ↦ Json.Reader.Takes.bind (h.takes (by decide)) rfl⟩
    | writeBufferSize =>
      exact ⟨_, rfl, fun a v s h ↦ Json.Reader.Takes.bind (h.takes (by decide)) rfl⟩
  whole := by
    have hset : ∀ {α : Type} {r : Reader α}, r.Whole → ∀ set : α → LineSettings, (do
        let a ← r
        pure (set a) : Reader LineSettings).Whole :=
      fun hr _ ↦ hr.bind fun _ ↦ Json.Reader.still_pure _
    have hnatural := Json.Reader.natural_whole
    simp only [Json.Reader.WholeFields, LineSettings.fields, List.forall_mem_cons]
    exact ⟨fun _ _ ↦ hset (hnatural _ _) _,
      fun place _ ↦ hset ((hnatural _ _).bind fun _ ↦ accept_still place _) _,
      fun _ _ ↦ hset (Json.Reader.variant_whole _) _, fun _ _ ↦ hset (Json.Reader.variant_whole _) _,
      fun _ _ ↦ hset (Json.Reader.variant_whole _) _,
      fun place _ ↦ hset (Json.Reader.binary64_whole.bind fun _ ↦ accept_still place _) _,
      fun _ _ ↦ hset (Json.Reader.variant_whole _) _, fun _ _ ↦ hset (hnatural _ _) _,
      fun _ _ ↦ hset (hnatural _ _) _, fun _ h ↦ absurd h List.not_mem_nil⟩

namespace Config

theorem schema_readBy : schema.ReadBy fields where
  names_eq := rfl
  takes part := by
    cases part with
    | devices =>
      refine ⟨_, rfl, fun paths v c h ↦ ?_⟩
      obtain ⟨ms, given, hobject, hgives, rfl⟩ := h
      exact Json.Reader.Takes.bind (DevicePaths.schema_readBy.record_takes hobject hgives) rfl
    | defaults =>
      refine ⟨_, rfl, fun settings v c h ↦ ?_⟩
      obtain ⟨ms, given, hobject, hgives, rfl⟩ := h
      exact Json.Reader.Takes.bind (LineSettings.schema_readBy.record_takes hobject hgives) rfl
  whole := by
    have hdevices : DevicePaths.reader.Whole :=
      Json.Reader.record_whole _ DevicePaths.schema_readBy.whole _
    have hdefaults : LineSettings.reader.Whole :=
      Json.Reader.record_whole _ LineSettings.schema_readBy.whole _
    simp only [Json.Reader.WholeFields, fields, List.forall_mem_cons]
    exact ⟨fun _ _ ↦ hdevices.bind fun _ ↦ Json.Reader.still_pure _,
      fun _ _ ↦ hdefaults.bind fun _ ↦ Json.Reader.still_pure _,
      fun _ h ↦ absurd h List.not_mem_nil⟩

/-! ### Whole texts -/

/-- The text of an object with these members, and blanks around it. -/
def IsTextOf (ms : List (String × List Char)) (text : String) : Prop :=
  ∃ before t after, Blank before ∧ IsObject ms t ∧ Blank after ∧
    text = String.ofList (before ++ (t ++ after))

/-- A member of a configuration is the same, or the same part with its own members rearranged. -/
inductive SameMember : String × List Char → String × List Char → Prop
  | refl (m : String × List Char) : SameMember m m
  | devices {v v' : List Char} {ms ms' : List (String × List Char)} (isObject : IsObject ms v)
      (isObject' : IsObject ms' v') (rearranged : DevicePaths.schema.Rearranged (· = ·) ms ms') :
      SameMember ("devices", v) ("devices", v')
  | defaults {v v' : List Char} {ms ms' : List (String × List Char)} (isObject : IsObject ms v)
      (isObject' : IsObject ms' v') (rearranged : LineSettings.schema.Rearranged (· = ·) ms ms') :
      SameMember ("defaults", v) ("defaults", v')

/-- A known key stands twice in the object of the configuration or in one of its parts. -/
inductive RepeatsKey (ms : List (String × List Char)) : Prop
  | part (twice : schema.Twice ms)
  | port {v : List Char} {ms' : List (String × List Char)} (mem : ("devices", v) ∈ ms)
      (isObject : IsObject ms' v) (twice : DevicePaths.schema.Twice ms')
  | setting {v : List Char} {ms' : List (String × List Char)} (mem : ("defaults", v) ∈ ms)
      (isObject : IsObject ms' v) (twice : LineSettings.schema.Twice ms')

variable {ms ms' : List (String × List Char)} {text text' : String} {given : schema.Given}

/-- A text is read as the default with what it gives replaced. -/
theorem read_of_gives (htext : IsTextOf ms text) (hgives : schema.Gives given ms) :
    Json.read reader text = .ok (schema.replace given {}) := by
  obtain ⟨before, t, after, hbefore, ht, hafter, rfl⟩ := htext
  obtain ⟨left, hdone, hleft⟩ :=
    schema_readBy.record_takes ht hgives hbefore (Json.ends_blank hafter)
  have hblank : left.dropWhile Json.isBlank = [] :=
    hleft.trans (List.dropWhile_eq_nil_iff.mpr hafter)
  exact Json.Reader.read_eq_ok.mpr ⟨left, hdone, List.dropWhile_eq_nil_iff.mp hblank⟩

/-- The parts of a configuration stand for the same when their own members are rearranged. -/
theorem spelled_of_sameMember {part : Part} {a : part.Value} {v v' : List Char}
    (h : SameMember (part.name, v) (part.name, v')) (hspelled : part.Spelled a v) :
    part.Spelled a v' := by
  generalize hm : (part.name, v) = m at h
  generalize hm' : (part.name, v') = m' at h
  cases h with
  | refl =>
    obtain rfl := (Prod.mk.inj (hm.trans hm'.symm)).2
    exact hspelled
  | devices isObject isObject' rearranged =>
    obtain ⟨hname, rfl⟩ := Prod.mk.inj hm
    obtain rfl : part = .devices := schema.name_injective hname
    obtain ⟨-, rfl⟩ := Prod.mk.inj hm'
    obtain ⟨ms₀, given, isObject₀, hgives, rfl⟩ := hspelled
    obtain rfl := isObject₀.unique isObject
    exact ⟨_, given, isObject', hgives.rearranged_eq rearranged, rfl⟩
  | defaults isObject isObject' rearranged =>
    obtain ⟨hname, rfl⟩ := Prod.mk.inj hm
    obtain rfl : part = .defaults := schema.name_injective hname
    obtain ⟨-, rfl⟩ := Prod.mk.inj hm'
    obtain ⟨ms₀, given, isObject₀, hgives, rfl⟩ := hspelled
    obtain rfl := isObject₀.unique isObject
    exact ⟨_, given, isObject', hgives.rearranged_eq rearranged, rfl⟩

theorem gives_of_rearranged (h : schema.Rearranged SameMember ms ms')
    (hgives : schema.Gives given ms) : schema.Gives given ms' :=
  hgives.rearranged (fun _ _ hsame ↦ by cases hsame <;> rfl)
    (fun _ _ _ _ hsame hspelled ↦ spelled_of_sameMember hsame hspelled) h

/-- A text with a repeated key is not read. -/
theorem read_of_repeatsKey (htext : IsTextOf ms text) (hrepeats : RepeatsKey ms) :
    ∃ diagnosis, Json.read reader text = .error diagnosis := by
  obtain ⟨before, t, after, hbefore, ht, hafter, rfl⟩ := htext
  rcases hread : Json.read reader (String.ofList (before ++ (t ++ after))) with diagnosis | c
  · exact ⟨diagnosis, rfl⟩
  · obtain ⟨left, hdone, -⟩ := Json.Reader.read_eq_ok.mp hread
    cases hrepeats with
    | part twice => exact absurd hdone (schema_readBy.record_fails ht twice hbefore)
    | port mem isObject twice =>
      obtain ⟨s₁, s₂, before', rest, left', hbefore', -, hstored⟩ :=
        schema_readBy.yields_of_record (k := .devices) ht hbefore hdone mem rfl
      obtain ⟨paths, mid, hpaths, -⟩ := Json.Reader.exists_of_bind hstored
      exact absurd hpaths (DevicePaths.schema_readBy.record_fails isObject twice hbefore')
    | setting mem isObject twice =>
      obtain ⟨s₁, s₂, before', rest, left', hbefore', -, hstored⟩ :=
        schema_readBy.yields_of_record (k := .defaults) ht hbefore hdone mem rfl
      obtain ⟨settings, mid, hsettings, -⟩ := Json.Reader.exists_of_bind hstored
      exact absurd hsettings (LineSettings.schema_readBy.record_fails isObject twice hbefore')

/-- What comes of a text that gives some values: the default with these replaced, if its settings
are positive where they have to be, and an error otherwise. -/
theorem ofJson_of_gives (htext : IsTextOf ms text) (hgives : schema.Gives given ms) :
    ofJson text = match (schema.replace given {}).defaults.validate with
      | .error reason => .error (.badDefaults reason)
      | .ok () => .ok (schema.replace given {}) := by
  cases hvalid : (schema.replace given {}).defaults.validate with
  | error reason => simp only [ofJson, read_of_gives htext hgives, hvalid]
  | ok => simp only [ofJson, read_of_gives htext hgives, hvalid]

/-- A text with any known members gives the default configuration with these replaced if its line
has a positive speed and positive buffers, and is refused otherwise. The order of members and all
unknown ones are without effect. A known key given twice is an error. -/
theorem ofJson_partial :
    (∀ ms text (given : schema.Given), IsTextOf ms text → schema.Gives given ms →
      let c := schema.replace given {}
      let usable := 0 < c.defaults.baudRate ∧ 0 < c.defaults.readBufferSize ∧
        0 < c.defaults.writeBufferSize
      (usable → ofJson text = .ok c) ∧
        (¬ usable → ∃ reason, ofJson text = .error (.badDefaults reason))) ∧
    (∀ ms ms' text text' (given : schema.Given), IsTextOf ms text → schema.Gives given ms →
      IsTextOf ms' text' → schema.Rearranged SameMember ms ms' → ofJson text' = ofJson text) ∧
    ∀ ms text, IsTextOf ms text → RepeatsKey ms →
      ∃ diagnosis, ofJson text = .error (.malformed diagnosis) := by
  refine ⟨fun ms text given htext hgives ↦ ?_, fun ms ms' text text' given htext hgives htext' h ↦ ?_,
    fun ms text htext hrepeats ↦ ?_⟩
  · intro c usable
    have hdone := ofJson_of_gives htext hgives
    rcases hvalid : c.defaults.validate with reason | ⟨⟨⟩⟩
    · refine ⟨fun husable ↦ ?_, fun _ ↦ ⟨reason, by rw [hdone, hvalid]⟩⟩
      rw [c.defaults.validate_eq_ok_iff.mpr husable] at hvalid
      cases hvalid
    · exact ⟨fun _ ↦ by rw [hdone, hvalid],
        fun hnot ↦ absurd (c.defaults.validate_eq_ok_iff.mp hvalid) hnot⟩
  · rw [ofJson_of_gives htext hgives, ofJson_of_gives htext' (gives_of_rearranged h hgives)]
  · obtain ⟨diagnosis, hread⟩ := read_of_repeatsKey htext hrepeats
    exact ⟨diagnosis, by simp only [ofJson, hread]⟩

/-- The speed is taken over, with and without an unknown member, and a part may not be given
twice. -/
theorem ofJson_partial_baudRate :
    ofJson "\x7b\"more\":[],\"defaults\":\x7b\"baud_rate\":38400\x7d\x7d" =
        .ok { defaults := { baudRate := 38400 } } ∧
      ofJson "\x7b\"defaults\":\x7b\"baud_rate\":38400\x7d\x7d" =
        ofJson "\x7b\"more\":[],\"defaults\":\x7b\"baud_rate\":38400\x7d\x7d" ∧
      ∃ diagnosis, ofJson "\x7b\"defaults\":[],\"defaults\":[]\x7d" =
        .error (.malformed diagnosis) := by
  have hblank : Blank [] := fun _ h ↦ absurd h List.not_mem_nil
  have htext : ∀ {ms t}, IsObject ms t → IsTextOf ms (String.ofList t) :=
    fun ht ↦ ⟨[], _, [], hblank, ht, hblank, by simp⟩
  have hlist : IsValue "[]".toList := Json.WellFormed.empty (b := .list) hblank
  have hrate : IsValue "38400".toList := .scalar <| .number <|
    @IsNumber.mk false "38400".toList [] [] none []
      (.inr ⟨⟨by decide, List.all_eq_true.mp (by decide)⟩, by decide⟩) .none .none
  have hsettings : IsObject [("baud_rate", "38400".toList)] "\x7b\"baud_rate\":38400\x7d".toList :=
    .members <| @Members.last "baud_rate" _ [] _ [] (Json.isKey_self (by decide)) hblank hrate hblank
  have hdefaults : ∀ {v}, IsValue v → Members [("defaults", v)] ("\"defaults\":".toList ++ v) := by
    intro v hv
    have hmembers :=
      @Members.last "defaults" _ [] v [] (Json.isKey_self (by decide)) hblank hv hblank
    rw [List.append_nil] at hmembers
    exact hmembers
  have hmore : ∀ key {ms items}, key.toList.all Json.isPlain →
      Members ms items → Members ((key, "[]".toList) :: ms) _ := fun key _ _ hkey hms ↦
    @Members.more key _ [] "[]".toList [] _ _ (Json.isKey_self hkey) hblank hlist hblank hms
  have hwith := htext (.members (hmore "more" (by decide) (hdefaults hsettings.isValue)))
  have hwithout := htext (.members (hdefaults hsettings.isValue))
  have htwice := htext (.members (hmore "defaults" (by decide) (hdefaults hlist)))
  have hgives : schema.Gives (fun
      | .devices => none
      | .defaults => some { baudRate := 38400 })
      [("more", "[]".toList), ("defaults", "\x7b\"baud_rate\":38400\x7d".toList)] := by
    intro part
    cases part with
    | devices => rfl
    | defaults =>
      refine ⟨_, rfl, _, fun
        | .baudRate => some (38400 : Nat)
        | _ => none, hsettings, fun k ↦ ?_, rfl⟩
      cases k <;> first | rfl | exact ⟨_, rfl, by decide, rfl⟩
  obtain ⟨hread, hrearranged, hrepeated⟩ := ofJson_partial
  exact ⟨(hread _ _ _ hwith hgives).1 (by decide),
    hrearranged _ _ _ _ _ hwith hgives hwithout ⟨_, .refl _, .cons (.refl _) .nil⟩,
    hrepeated _ _ htwice (.part ⟨"defaults", by decide, by decide⟩)⟩

end Config

end SerialLine
