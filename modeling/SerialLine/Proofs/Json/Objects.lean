import SerialLine.Proofs.Json.Taking
/-!
# Objects are taken member by member

An object is printed with every member on a line of its own. A record reader takes it if, one after
another, its fields take the members (`Stores`): a member has the name of a field that was not given
before, and the field takes the value, however deep that is nested. The order is that of the text,
and fields that are not named keep what the record starts with.
-/

set_option autoImplicit false

namespace SerialLine.Json

/-- A member of an object as it is printed at a depth, after the opening quote of its key. -/
def memberText (depth : Nat) (m : String × Written) : List Char :=
  m.1.toList.flatMap escaped ++ ['"'] ++ (':' :: ' ' :: m.2.pretty depth)

/-- The members that follow another one. -/
def laterText (depth : Nat) (ms : List (String × Written)) : List Char :=
  ms.flatMap fun m ↦ ',' :: (newline depth ++ '"' :: memberText depth m)

theorem laterText_cons_append (depth : Nat) (m : String × Written) (ms : List (String × Written))
    (rest : List Char) : laterText depth (m :: ms) ++ rest =
      ',' :: (newline depth ++ '"' :: (memberText depth m ++ (laterText depth ms ++ rest))) := by
  simp [laterText]

theorem flatten_intersperse {α : Type} (separator : List α) (text : List α)
    (texts : List (List α)) :
    ((text :: texts).intersperse separator).flatten =
      text ++ texts.flatMap fun t ↦ separator ++ t := by
  induction texts generalizing text with
  | nil => simp
  | cons t ts ih => rw [List.intersperse_cons_cons, List.flatten_cons, List.flatten_cons, ih]; simp

theorem Written.object_pretty (m : String × Written) (ms : List (String × Written))
    (depth : Nat) : (Written.object (m :: ms)).pretty depth =
      '{' :: (newline (depth + 1) ++ '"' :: (memberText (depth + 1) m ++
        (laterText (depth + 1) ms ++ (newline depth ++ ['}'])))) := by
  have hmember : ∀ m : String × Written, newline (depth + 1) ++ quote m.1 ++ ':' :: ' ' ::
      m.2.pretty (depth + 1) = newline (depth + 1) ++ '"' :: memberText (depth + 1) m :=
    fun m ↦ by simp [quote, memberText]
  simp only [Written.object, hmember, List.map_cons, flatten_intersperse]
  simp [laterText, List.flatMap_map]

theorem blank_newline (depth : Nat) : Blank (newline depth) := by
  intro c hc
  rcases List.mem_cons.mp hc with rfl | hspace
  · decide
  · rw [List.eq_of_mem_replicate hspace]
    decide

/-- After a value there is a comma, or the line of the closing brace. -/
theorem ends_laterText (depth : Nat) (ms : List (String × Written)) (below : Nat)
    (rest : List Char) : Ends (laterText depth ms ++ (newline below ++ rest)) := by
  cases ms with
  | nil => exact Ends.cons (by decide) _
  | cons m ms => exact Ends.cons (by decide) _

namespace Reader

variable {σ : Type}

/-- Fields of a record take members one after another, and change the record. -/
inductive Stores (fields : List (Field σ)) (depth : Nat) :
    List String → σ → List (String × Written) → σ → Prop
  | nil (given : List String) (s : σ) : Stores fields depth given s [] s
  | cons {given : List String} {s s' s'' : σ} {key : String} {w : Written}
      {ms : List (String × Written)} {field : Field σ}
      (known : fields.find? (·.name = key) = some field) (new : key ∉ given)
      (takes : (field.store .inObject s).Takes (w.pretty depth) s')
      (later : Stores fields depth (key :: given) s' ms s'') :
      Stores fields depth given s ((key, w) :: ms) s''

/-! ### From one key to the next -/

theorem nextKey_end {left rest : List Char} (h : left.dropWhile isBlank = '}' :: rest)
    (first : Bool) : nextKey first left = .ok (false, '}' :: rest) := by
  rw [nextKey, bind_of_ok (peekPastBlank_eq left), h]
  rfl

theorem nextKey_first {left rest : List Char} (h : left.dropWhile isBlank = '"' :: rest) :
    nextKey true left = .ok (true, '"' :: rest) := by
  rw [nextKey, bind_of_ok (peekPastBlank_eq left), h]
  rfl

theorem nextKey_later {left mid rest : List Char} (h : left.dropWhile isBlank = ',' :: mid)
    (hmid : mid.dropWhile isBlank = '"' :: rest) :
    nextKey false left = .ok (true, '"' :: rest) := by
  have hpeek : peekPastBlank mid = .ok (some '"', '"' :: rest) := by
    rw [peekPastBlank_eq, hmid]
    rfl
  rw [nextKey, bind_of_ok (peekPastBlank_eq left), h]
  simp only [List.head?_cons, Char.reduceEq, imp_self, Bool.false_eq_true, if_false, if_true,
    advance_bind, bind_of_ok hpeek]
  rfl

/-- A member is taken with its key and its value. -/
theorem member_takes {fields : List (Field σ)} {depth : Nat} {given : List String} {s s' : σ}
    {key : String} {w : Written} {field : Field σ}
    (hknown : fields.find? (·.name = key) = some field) (hnew : key ∉ given)
    (htakes : (field.store .inObject s).Takes (w.pretty depth) s') {rest : List Char}
    (hrest : Ends rest) :
    ∃ left, member fields given s ('"' :: (memberText depth (key, w) ++ rest)) =
        .ok ((key :: given, s'), left) ∧ left.dropWhile isBlank = rest.dropWhile isBlank := by
  obtain ⟨left, hstored, hleft⟩ := @htakes [' '] rest (by simp [Blank, isBlank]) hrest
  replace hstored : field.store .inObject s (' ' :: (w.pretty depth ++ rest)) = .ok (s', left) :=
    hstored
  have hcolon : colon (':' :: ' ' :: (w.pretty depth ++ rest)) =
      .ok ((), ' ' :: (w.pretty depth ++ rest)) := rfl
  refine ⟨left, ?_, hleft⟩
  rw [member, advance_bind, memberText, List.append_assoc (_ ++ ['"']),
    bind_of_ok (text_quoted key _)]
  simp only [hknown, if_neg hnew, List.cons_append]
  rw [bind_of_ok hcolon, bind_of_ok hstored]
  rfl

/-- The members that follow another one are taken up to the closing brace. By induction on them. -/
theorem members_take {fields : List (Field σ)} {depth below : Nat} {given : List String}
    {s s' : σ} {ms : List (String × Written)} (h : Stores fields depth given s ms s')
    {count : Nat} (hcount : ms.length < count) {left rest : List Char}
    (hleft : left.dropWhile isBlank =
      (laterText depth ms ++ (newline below ++ '}' :: rest)).dropWhile isBlank) :
    members fields count false given s left = .ok (s', '}' :: rest) := by
  induction h generalizing count left with
  | nil given s =>
    obtain ⟨n, rfl⟩ := Nat.exists_eq_add_of_lt hcount
    have hend := hleft.trans ((blank_newline below).dropWhile_append ('}' :: rest))
    rw [members, bind_of_ok (nextKey_end hend false)]
    rfl
  | @cons given s s' s'' key w ms field hknown hnew htakes _ ih =>
    obtain ⟨n, rfl⟩ := Nat.exists_eq_add_of_lt hcount
    obtain ⟨left', hmember, hleft'⟩ :=
      member_takes hknown hnew htakes (ends_laterText depth ms below ('}' :: rest))
    rw [laterText_cons_append] at hleft
    rw [members, bind_of_ok (nextKey_later hleft ((blank_newline depth).dropWhile_append _))]
    simp only [if_true]
    rw [bind_of_ok hmember]
    exact ih (Nat.lt_of_succ_lt_succ hcount) hleft'

/-- So are all members of an object, the first of which follows the opening brace. -/
theorem members_take_all {fields : List (Field σ)} {depth : Nat} (below : Nat) {s s' : σ}
    {m : String × Written} {ms : List (String × Written)}
    (h : Stores fields depth [] s (m :: ms) s') {count : Nat} (hcount : (m :: ms).length < count)
    (rest : List Char) :
    members fields count true [] s (newline depth ++ '"' :: (memberText depth m ++
      (laterText depth ms ++ (newline below ++ '}' :: rest)))) = .ok (s', '}' :: rest) := by
  obtain ⟨n, rfl⟩ := Nat.exists_eq_add_of_lt hcount
  cases h with
  | cons hknown hnew htakes hlater =>
    obtain ⟨left, hmember, hleft⟩ :=
      member_takes hknown hnew htakes (ends_laterText depth ms below ('}' :: rest))
    rw [members, bind_of_ok (nextKey_first ((blank_newline depth).dropWhile_append _))]
    simp only [if_true]
    rw [bind_of_ok hmember]
    exact members_take hlater (Nat.lt_of_succ_lt_succ hcount) hleft

theorem length_le_laterText (depth : Nat) (ms : List (String × Written)) :
    ms.length ≤ (laterText depth ms).length := by
  induction ms with
  | nil => exact Nat.le_refl 0
  | cons m ms ih =>
    simp only [laterText, List.flatMap_cons, List.length_append, List.length_cons] at ih ⊢
    omega

/-- An object is taken if the fields take its members. -/
theorem record_takes {expected : String} {fields : List (Field σ)} {depth : Nat} {start s : σ}
    {m : String × Written} {ms : List (String × Written)}
    (h : Stores fields (depth + 1) [] start (m :: ms) s) :
    (record expected fields start).Takes ((Written.object (m :: ms)).pretty depth) s := by
  rw [Written.object_pretty]
  refine Takes.of_start (by decide) fun rest ↦ ?_
  simp only [List.append_assoc, List.cons_append, List.nil_append]
  show (do
    advance
    let r ← fun cs ↦ members fields (cs.length + 1) true [] start cs
    advance
    pure r : Reader σ) _ = _
  rw [advance_bind]
  refine (bind_of_ok (r := fun cs ↦ members fields (cs.length + 1) true [] start cs)
    (members_take_all depth h ?_ rest)).trans rfl
  have hlength := length_le_laterText (depth + 1) ms
  simp only [List.length_append, List.length_cons]
  omega

end Reader

end SerialLine.Json
