import FailureFabric.FailureRecord
import FailureFabric.Hex
import FailureFabric.Library.Json
import Mathlib.Data.Nat.Digits.Lemmas

namespace FailureFabric

/-!
# JSON explanations

The JSON explanation of a failure (`explain.cpp`): fourteen members, the last of which is the
summary, a text that may hold any bytes.

* `quoteJson`, `explainFailureJson` — the texts that are written;
* `isString_quoteJson_iff` — a quoted text is a string literal, and decodes to the text, exactly
  when it has no control character but newlines;
* `isText_explainFailureJson` — then the explanation is a JSON object that holds the summary;
* `explanation_valid_iff` — and only then.

`quote_json` escapes quotes, backslashes and newlines, and copies every other byte.
-/

open Library Json

/-- The loop body of `quote_json`. -/
def jsonChar (ch : UInt8) : Text :=
  if ch = 0x22 then [0x5C, 0x22]
  else if ch = 0x5C then [0x5C, 0x5C]
  else if ch = 0x0A then [0x5C, 0x6E]
  else [ch]

/-- `quote_json`. -/
def quoteJson (s : Text) : Text := [0x22] ++ s.flatMap jsonChar ++ [0x22]

/-- An unsigned number as a stream writes it. -/
def decimal (n : Nat) : Text :=
  if n = 0 then [0x30] else (Nat.digits 10 n).reverse.map fun d => UInt8.ofNat (0x30 + d)

section Explain

open Text

/-- The members that `explain_failure_json` writes before the summary. -/
def failureFields (rec : FailureRecord) : Text :=
  ofLiteral "\"failure_id\":" ++ quoteJson rec.failureId.raw.toHex ++ ofLiteral "," ++
  ofLiteral "\"operation\":" ++ quoteJson rec.operation.raw.toHex ++ ofLiteral "," ++
  ofLiteral "\"attempt\":" ++ quoteJson rec.attempt.raw.toHex ++ ofLiteral "," ++
  ofLiteral "\"failure_class\":" ++ quoteJson (ofLiteral rec.failureClass.name) ++ ofLiteral "," ++
  ofLiteral "\"origin\":" ++ quoteJson (ofLiteral rec.origin.name) ++ ofLiteral "," ++
  ofLiteral "\"completion\":" ++ quoteJson (ofLiteral rec.completion.name) ++ ofLiteral "," ++
  ofLiteral "\"side_effect_state\":" ++ quoteJson (ofLiteral rec.sideEffectState.name) ++
    ofLiteral "," ++
  ofLiteral "\"retryability\":" ++ quoteJson (ofLiteral rec.retryability.name) ++ ofLiteral "," ++
  ofLiteral "\"rollback\":" ++ quoteJson (ofLiteral rec.rollback.name) ++ ofLiteral "," ++
  ofLiteral "\"compensation\":" ++ quoteJson (ofLiteral rec.compensation.name) ++ ofLiteral "," ++
  ofLiteral "\"terminality\":" ++ quoteJson (ofLiteral rec.terminality.name) ++ ofLiteral "," ++
  ofLiteral "\"recovery_owner\":" ++ quoteJson (ofLiteral rec.recoveryOwner.name) ++
    ofLiteral "," ++
  ofLiteral "\"unknown_side_effects\":" ++ decimal rec.unknownSideEffects.toNat

/-- `explain_failure_json`. -/
def explainFailureJson (rec : FailureRecord) : Text :=
  [0x7B] ++ failureFields rec ++ ofLiteral "," ++
  ofLiteral "\"summary\":" ++ quoteJson rec.summary ++ [0x7D]

/-- The members before the summary as they are meant. -/
def explainedFields (rec : FailureRecord) : List (Text × Value) :=
  [(ofLiteral "failure_id", .string rec.failureId.raw.toHex),
    (ofLiteral "operation", .string rec.operation.raw.toHex),
    (ofLiteral "attempt", .string rec.attempt.raw.toHex),
    (ofLiteral "failure_class", .string (ofLiteral rec.failureClass.name)),
    (ofLiteral "origin", .string (ofLiteral rec.origin.name)),
    (ofLiteral "completion", .string (ofLiteral rec.completion.name)),
    (ofLiteral "side_effect_state", .string (ofLiteral rec.sideEffectState.name)),
    (ofLiteral "retryability", .string (ofLiteral rec.retryability.name)),
    (ofLiteral "rollback", .string (ofLiteral rec.rollback.name)),
    (ofLiteral "compensation", .string (ofLiteral rec.compensation.name)),
    (ofLiteral "terminality", .string (ofLiteral rec.terminality.name)),
    (ofLiteral "recovery_owner", .string (ofLiteral rec.recoveryOwner.name)),
    (ofLiteral "unknown_side_effects", .number (decimal rec.unknownSideEffects.toNat))]

end Explain

/-! ### Quoted texts -/

/-- There is no control character in the text but newlines. -/
def Quotable (s : Text) : Prop := ∀ b ∈ s, 0x20 ≤ b ∨ b = 0x0A

instance (s : Text) : Decidable (Quotable s) :=
  List.decidableBAll (fun b => 0x20 ≤ b ∨ b = 0x0A) s

/-- The items of a quoted text. -/
theorem items_of_quotable {s : Text} (h : Quotable s) :
    ∃ items : List Item, s.flatMap jsonChar = items.flatMap Item.text ∧ decode items = s := by
  induction s with
  | nil => exact ⟨[], rfl, rfl⟩
  | cons b s ih =>
    obtain ⟨hb, hs⟩ := List.forall_mem_cons.mp h
    obtain ⟨items, htext, hdecode⟩ := ih hs
    rw [List.flatMap_cons, htext, jsonChar]
    split_ifs with hquote hbackslash hnewline
    · exact ⟨.escape .quote :: items, rfl, by rw [decode, hdecode, hquote]; rfl⟩
    · exact ⟨.escape .backslash :: items, rfl, by rw [decode, hdecode, hbackslash]; rfl⟩
    · exact ⟨.escape .n :: items, rfl, by rw [decode, hdecode, hnewline]; rfl⟩
    · have hunescaped : Unescaped b := ⟨hb.resolve_right hnewline, hquote, hbackslash⟩
      exact ⟨.byte b hunescaped :: items, rfl, by rw [decode, hdecode]⟩

/-- A quotable text is quoted as a literal that decodes to it. -/
theorem isString_quoteJson {s : Text} (h : Quotable s) : IsString (quoteJson s) s := by
  obtain ⟨items, htext, hdecode⟩ := items_of_quotable h
  exact ⟨items, by rw [quoteJson, htext]; rfl, hdecode⟩

/-- What the loop body writes for a byte leaves the scanner inside of the string, unless the byte is
    a control character that is copied. -/
theorem scan_jsonChar (b : UInt8) :
    scan .inside (jsonChar b) = if 0x20 ≤ b ∨ b = 0x0A then some .inside else none := by
  rw [jsonChar]
  split_ifs with hquote hquotable hbackslash hquotable hnewline hquotable hquotable
  · rfl
  · exact absurd (.inl (by rw [hquote]; decide)) hquotable
  · rfl
  · exact absurd (.inl (by rw [hbackslash]; decide)) hquotable
  · rfl
  · exact absurd (.inr hnewline) hquotable
  · have hunescaped : Unescaped b := ⟨hquotable.resolve_right hnewline, hquote, hbackslash⟩
    rw [scan_cons, scanByte_unescaped hunescaped]
    rfl
  · have hcontrol : b < 0x20 := by simpa using (not_or.mp hquotable).1
    rw [scan_cons, scanByte, if_pos hcontrol]
    rfl

/-- The scanner stops in the literal of any other text. -/
theorem scan_quoteJson_eq_none {s : Text} (h : ¬ Quotable s) :
    scan .outside (quoteJson s) = none := by
  have hbody : scan .inside (s.flatMap jsonChar) = none := by
    induction s with
    | nil => exact absurd (by simp [Quotable]) h
    | cons b s ih =>
      rw [List.flatMap_cons, scan_append, scan_jsonChar]
      split_ifs with hb
      · exact ih fun hs => h (List.forall_mem_cons.mpr ⟨hb, hs⟩)
      · rfl
  rw [quoteJson, scan_append, scan_append, show scan .outside [0x22] = some .inside from rfl,
    Option.bind_some, hbody]
  rfl

/-- **Quoted texts.** What `quote_json` makes of a text is a string literal exactly when the text
    has no control character but newlines, and then it decodes to that text. -/
theorem isString_quoteJson_iff (s bs : Text) :
    IsString (quoteJson s) bs ↔ Quotable s ∧ bs = s := by
  constructor
  · intro h
    have hs : Quotable s := by
      by_contra hne
      have hscan := scan_isString h
      rw [scan_quoteJson_eq_none hne] at hscan
      cases hscan
    exact ⟨hs, isString_unique h (isString_quoteJson hs)⟩
  · rintro ⟨hs, rfl⟩
    exact isString_quoteJson hs

/-! ### Explanations -/

private theorem decimalDigit : ∀ k : Fin 10,
    (0x30 ≤ UInt8.ofNat (0x30 + k) ∧ UInt8.ofNat (0x30 + k) ≤ 0x39) ∧
      (UInt8.ofNat (0x30 + k) = 0x30 → k = 0) := by
  decide

/-- A number is written as one. -/
theorem isNumber_decimal (n : Nat) : IsNumber (decimal n) := by
  refine ⟨[], decimal n, [], [], by simp, .inl rfl, ?_, .inl rfl, .inl rfl⟩
  rw [decimal]
  split_ifs with hn
  · exact .inl rfl
  · have hlt : ∀ k ∈ Nat.digits 10 n, k < 10 := fun k hk => Nat.digits_lt_base (by decide) hk
    have hne : Nat.digits 10 n ≠ [] := Nat.digits_ne_nil_iff_ne_zero.mpr hn
    refine .inr ⟨⟨by simpa using hne, fun d hd => ?_⟩, fun hzero => ?_⟩
    · obtain ⟨k, hk, rfl⟩ := List.mem_map.mp hd
      exact (decimalDigit ⟨k, hlt k (List.mem_reverse.mp hk)⟩).1
    · -- the first digit that is written is the last one of `Nat.digits`
      rw [List.head?_map, List.head?_reverse, List.getLast?_eq_some_getLast hne,
        Option.map_some] at hzero
      have hlast := hlt _ (List.getLast_mem hne)
      have hk := (decimalDigit ⟨_, hlast⟩).2 (Option.some.inj hzero)
      exact Nat.getLast_digit_ne_zero 10 hn (Fin.mk.inj hk)

theorem quotable_toHex (u : Uuid128) : Quotable u.toHex := by
  intro c hc
  have hdigit := Uuid128.isHexDigit_of_mem_toHex hc
  simp only [Hex.isHexDigit, Bool.or_eq_true, Bool.and_eq_true, decide_eq_true_eq] at hdigit
  rcases hdigit with (h | h) | h
  · exact .inl (UInt8.le_trans (by decide) h.1)
  · exact .inl (UInt8.le_trans (by decide) h.1)
  · exact .inl (UInt8.le_trans (by decide) h.1)

section Members

open Text

/-- A member with its name and separator as one literal of the source. -/
theorem derives_member {lit : String} {name t : Text} {v : Value}
    (hlit : ofLiteral lit = quoteJson name ++ [0x3A]) (hname : Quotable name)
    (h : Derives t (.value v)) : Derives (ofLiteral lit ++ t) (.members [(name, v)]) := by
  have hws : IsWs [] := fun _ hb => absurd hb List.not_mem_nil
  have hmember := Derives.member hws hws hws hws (isString_quoteJson hname) h
  rw [hlit]
  simpa only [memberText, List.nil_append, List.append_nil] using hmember

/-- A member in front of others. -/
theorem derives_cons {lit : String} {name t rest : Text} {v : Value} {ms : List (Text × Value)}
    (hlit : ofLiteral lit = quoteJson name ++ [0x3A]) (hname : Quotable name)
    (h : Derives t (.value v)) (hrest : Derives rest (.members ms)) :
    Derives (ofLiteral lit ++ (t ++ (ofLiteral "," ++ rest))) (.members ((name, v) :: ms)) := by
  have hmembers := (derives_member hlit hname h).members_append hrest
  rw [show ofLiteral "," = [0x2C] by decide]
  simpa only [List.append_assoc, List.cons_append, List.nil_append] using hmembers

/-- The members before the summary are what they are meant to be. -/
theorem derives_fields (rec : FailureRecord) :
    Derives (failureFields rec) (.members (explainedFields rec)) := by
  have hstring : ∀ {s : Text}, Quotable s → Derives (quoteJson s) (.value (.string s)) :=
    fun h => .string (isString_quoteJson h)
  unfold failureFields explainedFields
  simp only [List.append_assoc]
  -- three identities, nine names and a number
  iterate 3 refine derives_cons (by decide) (by decide) (hstring (quotable_toHex _)) ?_
  refine derives_cons (by decide) (by decide) (hstring (by cases rec.failureClass <;> decide)) ?_
  refine derives_cons (by decide) (by decide) (hstring (by cases rec.origin <;> decide)) ?_
  refine derives_cons (by decide) (by decide) (hstring (by cases rec.completion <;> decide)) ?_
  refine derives_cons (by decide) (by decide) (hstring (by cases rec.sideEffectState <;> decide)) ?_
  refine derives_cons (by decide) (by decide) (hstring (by cases rec.retryability <;> decide)) ?_
  refine derives_cons (by decide) (by decide) (hstring (by cases rec.rollback <;> decide)) ?_
  refine derives_cons (by decide) (by decide) (hstring (by cases rec.compensation <;> decide)) ?_
  refine derives_cons (by decide) (by decide) (hstring (by cases rec.terminality <;> decide)) ?_
  refine derives_cons (by decide) (by decide) (hstring (by cases rec.recoveryOwner <;> decide)) ?_
  exact derives_member (by decide) (by decide) (.number (isNumber_decimal _))

/-- The explanation is a JSON object that holds the summary, if the summary is quotable. -/
theorem isText_explainFailureJson {rec : FailureRecord} (h : Quotable rec.summary) :
    IsText (explainFailureJson rec)
      (.object (explainedFields rec ++ [(ofLiteral "summary", .string rec.summary)])) := by
  have hsummary : Derives (ofLiteral "\"summary\":" ++ quoteJson rec.summary)
      (.members [(ofLiteral "summary", .string rec.summary)]) :=
    derives_member (by decide) (by decide) (.string (isString_quoteJson h))
  have hws : IsWs [] := fun _ hb => absurd hb List.not_mem_nil
  refine ⟨[], explainFailureJson rec, [], by simp, hws, hws, ?_⟩
  have hobject := Derives.object ((derives_fields rec).members_append hsummary)
  rw [explainFailureJson, show ofLiteral "," = [0x2C] by decide]
  simpa only [List.append_assoc] using hobject

/-- If the summary is not quotable, the explanation is no JSON text. -/
theorem quotable_of_isText {rec : FailureRecord} {v : Value}
    (h : IsText (explainFailureJson rec) v) : Quotable rec.summary := by
  by_contra hne
  have hscan := scan_of_isText h
  have hbrace : scan .outside [0x7B] = some .outside := rfl
  have hcomma : scan .outside (ofLiteral ",") = some .outside := by decide
  have hname : scan .outside (ofLiteral "\"summary\":") = some .outside := by decide
  -- the scanner comes to the summary, and stops there
  simp only [explainFailureJson, scan_append, hbrace, Option.bind_some,
    scan_of_derives (derives_fields rec), hcomma, hname, scan_quoteJson_eq_none hne,
    Option.bind_none, reduceCtorEq] at hscan

/-- **Explanations.** A quoted text is a string literal that decodes to the text, and the
    explanation of a failure a JSON object with a member that decodes to the summary, exactly when
    the text has no control character but newlines. -/
theorem explanation_valid_iff (s : Text) (rec : FailureRecord) :
    (∀ bs, IsString (quoteJson s) bs ↔ Quotable s ∧ bs = s) ∧
    ((∃ ms, IsText (explainFailureJson rec) (.object ms) ∧
      (ofLiteral "summary", .string rec.summary) ∈ ms) ↔ Quotable rec.summary) := by
  refine ⟨isString_quoteJson_iff s, fun ⟨_, h, _⟩ => quotable_of_isText h, fun h => ?_⟩
  exact ⟨_, isText_explainFailureJson h, List.mem_append_right _ List.mem_cons_self⟩

/-- A tab is copied. -/
theorem explanation_tab :
    ¬ IsString (quoteJson [0x09]) [0x09] ∧
      ¬ ∃ v, IsText (explainFailureJson { summary := [0x09] }) v := by
  have htab : ¬ Quotable [0x09] := by decide
  constructor
  · intro h
    exact htab ((isString_quoteJson_iff _ _).mp h).1
  · rintro ⟨v, h⟩
    exact htab (quotable_of_isText h)

end Members

end FailureFabric
