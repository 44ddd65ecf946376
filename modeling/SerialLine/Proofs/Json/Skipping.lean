import SerialLine.Proofs.Json.Scanning
/-!
# Well-formed values are passed over

Every value of the grammar is taken whole by `skipValue`, wherever it stands and however deep it
nests (`skipValue_isValue`). The loop keeps the brackets that are open, so the induction is on the
grammar, with any brackets around (`passed_of_wellFormed`): a value takes the loop from before it to
after it, and the items of a bracket take it from behind the opening to behind the closing. The
count of parts never runs out, as every part but the last of a bracket takes a character.
-/

set_option autoImplicit false

namespace SerialLine.Json

theorem ends_of_blank {gap : List Char} (hgap : Blank gap) {c : Char} (hc : ¬ InNumber c)
    (rest : List Char) : Ends (gap ++ c :: rest) := by
  cases gap with
  | nil => exact .cons hc rest
  | cons d gap =>
    have hd := hgap d List.mem_cons_self
    simp only [isBlank, decide_eq_true_eq] at hd
    refine .cons ?_ _
    rcases hd with rfl | rfl | rfl | rfl <;> decide

/-- What stands before a value in an object shows its opening quote after the blanks, and a colon
follows the text. -/
theorem dropWhile_label_append {before cs after : List Char} (hbefore : Blank before)
    (t : List Char) :
    ((before ++ (between cs ++ (after ++ [':']))) ++ t).dropWhile isBlank =
      '"' :: (cs ++ '"' :: (after ++ ':' :: t)) := by
  rw [List.append_assoc, hbefore.dropWhile_append, between, List.cons_append, List.cons_append,
    List.dropWhile_cons_of_neg (by decide)]
  simp only [List.append_assoc, List.cons_append, List.nil_append]

theorem IsLabel.length_pos {label : List Char} (h : IsLabel .object label) : 0 < label.length := by
  cases h with
  | object _ _ _ =>
    simp only [List.length_append, List.length_cons]
    omega

namespace Reader

/-- The characters that a value may start with. -/
def Starts (c : Char) : Prop := (c = '-' ∨ c.isDigit) ∨ c ∈ ['n', 't', 'f', '"', '[', '{']

theorem Starts.not_blank {c : Char} (h : Starts c) : ¬ isBlank c := by
  intro hblank
  simp only [isBlank, decide_eq_true_eq] at hblank
  rcases hblank with rfl | rfl | rfl | rfl <;> exact absurd h (by simp [Starts])

/-- What starts with `c` neither ends a bracket nor goes on after a comma. -/
theorem Starts.not_closing {c : Char} (h : Starts c) (b : Bracket) : c ≠ b.closing := by
  rintro rfl
  cases b <;> exact absurd h (by simp [Starts, Bracket.closing])

theorem skipNumber_isNumber {l : Literal} {t rest : List Char} (h : IsNumber l t)
    (hrest : Ends rest) : skipNumber (t ++ rest) = .ok ((), rest) := by
  rw [skipNumber, bind_of_ok (literal_isNumber .badNumber h hrest)]
  rfl

/-- The start of a value that is no bracket is all of it. -/
theorem skipStart_scalar {t : List Char} (h : IsScalar t) {before rest : List Char}
    (hbefore : Blank before) (hrest : Ends rest) :
    skipStart (before ++ (t ++ rest)) = .ok (none, rest) := by
  cases h with
  | null =>
    rw [List.cons_append, skipStart, bind_of_ok (peekPastBlank_of_start hbefore (by decide) _)]
    show (do advance; word ['u', 'l', 'l']; pure none : Reader (Option Bracket)) _ = _
    rw [advance_bind, bind_of_ok (word_append ['u', 'l', 'l'] rest)]
    rfl
  | true =>
    rw [List.cons_append, skipStart, bind_of_ok (peekPastBlank_of_start hbefore (by decide) _)]
    show (do advance; word ['r', 'u', 'e']; pure none : Reader (Option Bracket)) _ = _
    rw [advance_bind, bind_of_ok (word_append ['r', 'u', 'e'] rest)]
    rfl
  | false =>
    rw [List.cons_append, skipStart, bind_of_ok (peekPastBlank_of_start hbefore (by decide) _)]
    show (do advance; word ['a', 'l', 's', 'e']; pure none : Reader (Option Bracket)) _ = _
    rw [advance_bind, bind_of_ok (word_append ['a', 'l', 's', 'e'] rest)]
    rfl
  | number isNumber =>
    obtain ⟨c, cs, rfl, hc⟩ := isNumber.start
    have hstart : Starts c := .inl hc
    have hskip := skipNumber_isNumber isNumber hrest
    rw [List.cons_append] at hskip ⊢
    rw [skipStart, bind_of_ok (peekPastBlank_of_start hbefore hstart.not_blank _)]
    simp only [if_pos hc]
    rw [bind_of_ok hskip]
    rfl
  | @text cs inside =>
    have hskip := skipText_inside inside rest
    rw [between, List.cons_append, List.append_assoc, skipStart,
      bind_of_ok (peekPastBlank_of_start hbefore (by decide) _)]
    show (do advance; skipText; pure none : Reader (Option Bracket)) _ = _
    rw [advance_bind]
    exact (bind_of_ok hskip).trans rfl

theorem skipStart_opening (b : Bracket) {before : List Char} (hbefore : Blank before)
    (rest : List Char) : skipStart (before ++ b.opening :: rest) = .ok (some b, rest) := by
  have hb : ¬ isBlank b.opening := by cases b <;> decide
  rw [skipStart, bind_of_ok (peekPastBlank_of_start hbefore hb _)]
  cases b <;> rfl

/-- The key of a member, or nothing in a list, is taken up to the blanks before the value. -/
theorem skipKey_label {b : Bracket} {label before t : List Char} (h : IsLabel b label)
    (hbefore : Blank before) :
    ∃ gap, Blank gap ∧ skipKey b (label ++ (before ++ t)) = .ok ((), gap ++ t) := by
  cases h with
  | list => exact ⟨before, hbefore, rfl⟩
  | @object gap cs after blank inside blank' =>
    refine ⟨before, hbefore, ?_⟩
    have hskip := skipText_inside inside (after ++ ':' :: (before ++ t))
    have hcolon : colon (after ++ ':' :: (before ++ t)) = .ok ((), before ++ t) := by
      rw [colon, bind_of_ok (peekPastBlank_of_start blank' (by decide) _)]
      rfl
    simp only [List.append_assoc, between, List.cons_append, List.nil_append]
    rw [skipKey, bind_of_ok (peekPastBlank_of_start blank (by decide) _)]
    show (do advance; skipText; colon : Reader Unit) _ = _
    rw [advance_bind, bind_of_ok hskip, hcolon]

/-- How far the loop comes: over a value it gets to what follows it, and over what stands inside a
bracket it gets behind the bracket, from the start as well as from a comma. -/
def Passed : Option Bracket → List Char → Prop
  | none, t => ∃ parts, parts + 1 ≤ 2 * t.length ∧ ∀ (n : Nat) (brackets : List Bracket)
      ⦃before rest : List Char⦄, Blank before → Ends rest →
        skipLoop (parts + n) .value brackets (before ++ (t ++ rest)) =
          skipLoop n .next brackets rest
  | some b, items => ∃ parts, parts ≤ 2 * items.length + 1 ∧
      ∀ (n : Nat) (brackets : List Bracket) (rest : List Char),
        skipLoop (parts + n) .first (b :: brackets) (items ++ b.closing :: rest) =
            skipLoop n .next brackets rest ∧
          ∀ ⦃after : List Char⦄, Blank after →
            skipLoop (parts + n) .next (b :: brackets)
              (after ++ ',' :: (items ++ b.closing :: rest)) = skipLoop n .next brackets rest

theorem Bracket.not_blank_closing (b : Bracket) : ¬ isBlank b.closing := by cases b <;> decide

theorem start_of_isValue {t : List Char} (h : IsValue t) : ∃ c cs, t = c :: cs ∧ Starts c := by
  cases h with
  | scalar isScalar =>
    cases isScalar with
    | null => exact ⟨_, _, rfl, .inr (by decide)⟩
    | true => exact ⟨_, _, rfl, .inr (by decide)⟩
    | false => exact ⟨_, _, rfl, .inr (by decide)⟩
    | number isNumber =>
      obtain ⟨c, cs, rfl, hc⟩ := isNumber.start
      exact ⟨c, cs, rfl, .inl hc⟩
    | text _ => exact ⟨_, _, rfl, .inr (by decide)⟩
  | @empty b _ _ => exact ⟨_, _, rfl, .inr (by cases b <;> decide)⟩
  | @bracket b _ _ => exact ⟨_, _, rfl, .inr (by cases b <;> decide)⟩

/-- Without the blanks in front, a key or nothing still stands before the value, and the bracket
does not end there. -/
theorem dropWhile_label {b : Bracket} {label before t : List Char} (h : IsLabel b label)
    (hbefore : Blank before) (ht : ∃ c cs, t = c :: cs ∧ Starts c) :
    ∃ label' before' c cs, IsLabel b label' ∧ Blank before' ∧ c ≠ b.closing ∧
      (label ++ (before ++ t)).dropWhile isBlank = c :: cs ∧
      c :: cs = label' ++ (before' ++ t) := by
  obtain ⟨c, cs, rfl, hc⟩ := ht
  cases h with
  | list =>
    refine ⟨[], [], c, cs, .list, fun _ h ↦ absurd h List.not_mem_nil, hc.not_closing _, ?_, rfl⟩
    rw [List.nil_append, hbefore.dropWhile_append, List.dropWhile_cons_of_neg hc.not_blank]
  | @object gap inner after blank inside blank' =>
    refine ⟨between inner ++ (after ++ [':']), before, '"', _,
      .object (fun _ h ↦ absurd h List.not_mem_nil) inside blank', hbefore, by decide, ?_, rfl⟩
    rw [List.append_assoc, blank.dropWhile_append, between, List.cons_append, List.cons_append,
      List.dropWhile_cons_of_neg (by decide)]
    rfl

variable {b : Bracket}

/-- The end of a bracket is passed, after its items as well as instead of them. -/
theorem skipLoop_closing {expecting : Expecting} (h : expecting ≠ .value) (n : Nat)
    {brackets : List Bracket} {gap : List Char} (hgap : Blank gap) (rest : List Char) :
    skipLoop (n + 1) expecting (b :: brackets) (gap ++ b.closing :: rest) =
      skipLoop n .next brackets rest := by
  have hdrop : (gap ++ b.closing :: rest).dropWhile isBlank = b.closing :: rest := by
    rw [hgap.dropWhile_append, List.dropWhile_cons_of_neg b.not_blank_closing]
  cases expecting with
  | value => exact absurd rfl h
  | first => simp only [skipLoop, hdrop, if_true]
  | next => simp only [skipLoop, hdrop, if_true]

/-- The first member of a bracket is entered. -/
theorem skipLoop_first {label before t : List Char} (h : IsLabel b label) (hbefore : Blank before)
    (ht : ∃ c cs, t = c :: cs ∧ Starts c) :
    ∃ gap, Blank gap ∧ ∀ n brackets,
      skipLoop (n + 1) .first (b :: brackets) (label ++ (before ++ t)) =
        skipLoop n .value (b :: brackets) (gap ++ t) := by
  obtain ⟨label', before', c, cs, hlabel, hbefore', hc, hdrop, hcs⟩ := dropWhile_label h hbefore ht
  obtain ⟨gap, hgap, hkey⟩ := skipKey_label hlabel (t := t) hbefore'
  rw [← hcs] at hkey
  refine ⟨gap, hgap, fun n brackets ↦ ?_⟩
  simp only [skipLoop, hdrop, if_neg hc, reduceCtorEq, false_and, if_false, hkey]

/-- So is the member after a comma. -/
theorem skipLoop_next {after label before t : List Char} (hafter : Blank after)
    (h : IsLabel b label) (hbefore : Blank before) :
    ∃ gap, Blank gap ∧ ∀ n brackets,
      skipLoop (n + 1) .next (b :: brackets) (after ++ ',' :: (label ++ (before ++ t))) =
        skipLoop n .value (b :: brackets) (gap ++ t) := by
  obtain ⟨gap, hgap, hkey⟩ := skipKey_label h (t := t) hbefore
  refine ⟨gap, hgap, fun n brackets ↦ ?_⟩
  have hdrop : (after ++ ',' :: (label ++ (before ++ t))).dropWhile isBlank =
      ',' :: (label ++ (before ++ t)) := by
    rw [hafter.dropWhile_append, List.dropWhile_cons_of_neg (by decide)]
  have hc : ',' ≠ b.closing := by cases b <;> decide
  simp only [skipLoop, hdrop, if_neg hc, ne_eq, not_true_eq_false, and_false, if_false, if_true,
    hkey]

/-- An item is entered at its value, as the first one as well as behind a comma. -/
theorem skipLoop_item {label before v next : List Char} (h : IsLabel b label)
    (hbefore : Blank before) (hv : IsValue v) {n : ℕ} {brackets : List Bracket}
    {result : Except Failure (List Char)}
    (hvalue : ∀ gap, Blank gap →
      skipLoop n .value (b :: brackets) (gap ++ (v ++ next)) = result) :
    skipLoop (n + 1) .first (b :: brackets) (label ++ (before ++ (v ++ next))) = result ∧
      ∀ ⦃after : List Char⦄, Blank after →
        skipLoop (n + 1) .next (b :: brackets)
          (after ++ ',' :: (label ++ (before ++ (v ++ next)))) = result := by
  constructor
  · obtain ⟨c, cs, rfl, hc⟩ := start_of_isValue hv
    obtain ⟨gap, hgap, hfirst⟩ := skipLoop_first h hbefore ⟨c, cs ++ next, rfl, hc⟩
    exact (hfirst n brackets).trans (hvalue gap hgap)
  · intro after hafter
    obtain ⟨gap, hgap, hnext⟩ := skipLoop_next (t := v ++ next) hafter h hbefore
    exact (hnext n brackets).trans (hvalue gap hgap)

/-- By induction on the form of the text: a bracket is entered, its items are passed one after
another, and its end leads back to the brackets around it. -/
theorem passed_of_wellFormed {b? : Option Bracket} {t : List Char} (h : WellFormed b? t) :
    Passed b? t := by
  induction h with
  | @scalar t isScalar =>
    obtain ⟨c, cs, hstart, -⟩ := start_of_isValue (.scalar isScalar)
    refine ⟨1, by rw [hstart, List.length_cons]; omega,
      fun n brackets before rest hbefore hrest ↦ ?_⟩
    rw [Nat.add_comm, skipLoop, skipStart_scalar isScalar hbefore hrest]
  | @empty b gap blank =>
    refine ⟨2, by simp only [List.length_cons, List.length_append]; omega,
      fun n brackets before rest hbefore _ ↦ ?_⟩
    rw [List.cons_append, List.append_assoc, Nat.add_comm, skipLoop,
      skipStart_opening b hbefore]
    exact skipLoop_closing (by decide) n blank rest
  | @bracket b items inner ih =>
    obtain ⟨parts, hparts, hitems⟩ := ih
    refine ⟨parts + 1, by simp only [List.length_cons, List.length_append]; omega,
      fun n brackets before rest hbefore _ ↦ ?_⟩
    rw [List.cons_append, List.append_assoc, Nat.add_right_comm, skipLoop,
      skipStart_opening b hbefore]
    exact (hitems n brackets rest).1
  | @last b label before v after isLabel blank value blank' ih =>
    obtain ⟨parts, hparts, hvalue⟩ := ih
    refine ⟨parts + 2, by simp only [List.length_append]; omega, fun n brackets rest ↦ ?_⟩
    have hends : Ends (after ++ b.closing :: rest) := ends_of_blank blank' (by cases b <;> decide) rest
    rw [show parts + 2 + n = parts + (n + 1) + 1 by omega]
    simp only [List.append_assoc]
    refine skipLoop_item isLabel blank value fun gap hgap ↦ ?_
    rw [hvalue _ _ hgap hends]
    exact skipLoop_closing (by decide) n blank' rest
  | @more b label before v after items isLabel blank value blank' later ih ihLater =>
    obtain ⟨parts, hparts, hvalue⟩ := ih
    obtain ⟨partsLater, hpartsLater, hlater⟩ := ihLater
    refine ⟨parts + 1 + partsLater,
      by simp only [List.length_append, List.length_cons]; omega, fun n brackets rest ↦ ?_⟩
    have hends : Ends (after ++ ',' :: (items ++ b.closing :: rest)) :=
      ends_of_blank blank' (by decide) _
    rw [show parts + 1 + partsLater + n = parts + (partsLater + n) + 1 by omega]
    simp only [List.append_assoc, List.cons_append]
    refine skipLoop_item isLabel blank value fun gap hgap ↦ ?_
    rw [hvalue _ _ hgap hends]
    exact (hlater n brackets rest).2 blank'

/-- A value is passed over, whatever it is, up to what follows it. -/
theorem skipValue_isValue {t before rest : List Char} (h : IsValue t) (hbefore : Blank before)
    (hrest : Ends rest) : skipValue (before ++ (t ++ rest)) = .ok ((), rest) := by
  obtain ⟨parts, hparts, hloop⟩ := passed_of_wellFormed h
  obtain ⟨n, hn⟩ : ∃ n, 2 * (before ++ (t ++ rest)).length + 2 = parts + n := by
    refine Nat.exists_eq_add_of_le ?_
    simp only [List.length_append]
    omega
  have hend : skipLoop n .next [] rest = .ok rest := by cases n <;> rfl
  rw [skipValue, hn, hloop n [] hbefore hrest, hend]

end Reader

end SerialLine.Json
