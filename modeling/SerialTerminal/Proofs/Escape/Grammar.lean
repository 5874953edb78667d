/-
What the parser recognises, said without the parser.

The parser folds bytes into a `Csi.Body` one at a time. Here the same sequence is
read as a whole: its body is **split at the semicolons**, each field is read as a
decimal number, and the result is cut down to what a sequence keeps
(`Csi.ofBytes`). The bridge between the two is one equation, `collect_ofBytes`: a
byte takes what was collected from the bytes before it to what is collected from
the bytes with it.

With that equation the state of the parser after any stream is known from the end
of the stream alone, which gives the converse: nothing else is ever reported as a
sequence.
-/
import Mathlib.Data.List.Induction
import Mathlib.Data.Nat.Digits.Defs
import SerialTerminal.Escape.Parser

set_option autoImplicit false

namespace SerialTerminal

open SerialTerminal.Parser

namespace Csi

/-! ## The grammar -/

/-- No byte of a body ends the sequence. -/
def IsBody (body : List UInt8) : Prop :=
  ∀ b ∈ body, ¬ (0x40 ≤ b ∧ b ≤ 0x7D)

instance (body : List UInt8) : Decidable (IsBody body) :=
  List.decidableBAll (fun b => ¬ (0x40 ≤ b ∧ b ≤ 0x7D)) body

/-- The field with the given index, empty when there are not that many. -/
def field (body : List UInt8) (index : Nat) : List UInt8 :=
  ((body.splitOn semicolon)[index]?).getD []

/-- The decimal number that the digits of a field spell. Other bytes do not count,
and a field without a digit is zero. -/
def decimal (field : List UInt8) : Nat :=
  Nat.ofDigits 10 ((field.filter isDigit).map digitValue).reverse

/-- What a sequence keeps of its body: the first fields, each up to the limit, the
number of separators up to the number of fields kept, and whether there is a
question mark anywhere. -/
def Body.ofBytes (body : List UInt8) : Body where
  params := .ofFn fun i => min paramLimit (decimal (field body i))
  count := min maxParams (body.count semicolon)
  isPrivate := decide (question ∈ body)

/-- The sequence with the given body and final byte. -/
def ofBytes (body : List UInt8) (final : UInt8) : Csi :=
  { Body.ofBytes body with final }

/-! ## One more byte -/

theorem field_nil (index : Nat) : field [] index = [] := by
  cases index <;> simp [field]

/-- The first byte opens the first field, or closes it when it is a separator. -/
theorem field_cons (b : UInt8) (body : List UInt8) (index : Nat) :
    field (b :: body) index =
      if b = semicolon then
        if index = 0 then [] else field body (index - 1)
      else if index = 0 then b :: field body 0 else field body index := by
  obtain ⟨first, rest, hsplit⟩ := List.exists_cons_of_ne_nil (List.splitOn_ne_nil semicolon body)
  by_cases hb : b = semicolon
  · cases index <;> simp [field, List.splitOn_cons_eq_if_modifyHead, hb]
  · cases index <;> simp [field, List.splitOn_cons_eq_if_modifyHead, hb, hsplit]

/-- The last byte goes to the last field, unless it is a separator. The index of
the last field is the number of separators. -/
theorem field_append_singleton (body : List UInt8) (b : UInt8) (index : Nat) :
    field (body ++ [b]) index =
      if b ≠ semicolon ∧ index = body.count semicolon then field body index ++ [b]
      else field body index := by
  -- from the front: a separator there moves every later field up by one
  induction body generalizing index with
  | nil =>
    rw [List.nil_append, field_cons]
    by_cases hb : b = semicolon <;> by_cases hi : index = 0 <;> simp [field_nil, hb, hi]
  | cons a body ih =>
    rw [List.cons_append, field_cons, field_cons]
    by_cases ha : a = semicolon
    · rw [if_pos ha, if_pos ha, ha, List.count_cons_self]
      rcases index with _ | index
      · simp
      · simpa using ih index
    · rw [if_neg ha, if_neg ha, List.count_cons_of_ne ha, ih, ih]
      rcases index with _ | index
      · by_cases h : b ≠ semicolon ∧ 0 = body.count semicolon <;> simp [h]
      · simp

theorem decimal_nil : decimal [] = 0 := rfl

/-- A digit multiplies by ten and adds its value; any other byte is passed over. -/
theorem decimal_append_singleton (field : List UInt8) (b : UInt8) :
    decimal (field ++ [b]) =
      if isDigit b then decimal field * 10 + digitValue b else decimal field := by
  by_cases hb : isDigit b = true
  · have hsplit : (field ++ [b]).filter isDigit = field.filter isDigit ++ [b] := by
      rw [List.filter_append, List.filter_cons_of_pos hb, List.filter_nil]
    -- the last digit is the first one of the number read backwards
    rw [if_pos hb, decimal, hsplit, List.map_append, List.reverse_append]
    change digitValue b + 10 * decimal field = _
    omega
  · have hsplit : (field ++ [b]).filter isDigit = field.filter isDigit := by
      rw [List.filter_append, List.filter_cons_of_neg hb, List.filter_nil, List.append_nil]
    rw [if_neg hb, decimal, hsplit, decimal]

/-- Cutting off at the limit after every digit is cutting off once at the end. -/
theorem min_paramLimit_digit (n d : Nat) :
    min paramLimit (min paramLimit n * 10 + d) = min paramLimit (n * 10 + d) := by
  simp only [paramLimit]
  omega

/-! ## What a byte does to a body -/

theorem collect_of_isDigit (c : Body) {b : UInt8} (h : isDigit b = true) :
    collect c b = c.digit (digitValue b) := if_pos h

theorem collect_semicolon (c : Body) : collect c semicolon = c.separator := rfl

theorem collect_question (c : Body) : collect c question = c.questionMark := rfl

theorem collect_of_junk (c : Body) {b : UInt8} (hdigit : ¬ isDigit b = true)
    (hsep : b ≠ semicolon) (hquestion : b ≠ question) : collect c b = c := by
  rw [collect, if_neg hdigit, if_neg hsep, if_neg hquestion]

/-- A digit is no byte of another kind. -/
theorem ne_of_isDigit {b c : UInt8} (hb : isDigit b = true) (hc : isDigit c = false) :
    b ≠ c := by
  rintro rfl
  rw [hb] at hc
  cases hc

/-- The four kinds of bytes that a body can hold. -/
theorem body_byte_cases (b : UInt8) :
    isDigit b = true ∨ b = semicolon ∨ b = question ∨
      (¬ isDigit b = true ∧ b ≠ semicolon ∧ b ≠ question) := by
  by_cases hdigit : isDigit b = true
  · exact .inl hdigit
  by_cases hsep : b = semicolon
  · exact .inr (.inl hsep)
  by_cases hquestion : b = question
  · exact .inr (.inr (.inl hquestion))
  · exact .inr (.inr (.inr ⟨hdigit, hsep, hquestion⟩))

/-- Only a digit changes a parameter, and only the one being collected. -/
theorem getElem_params_collect (c : Body) (b : UInt8) {i : Nat} (hi : i < maxParams) :
    (collect c b).params[i] =
      if isDigit b = true ∧ i = c.count then min paramLimit (c.params[i] * 10 + digitValue b)
      else c.params[i] := by
  rcases body_byte_cases b with hb | rfl | rfl | ⟨hdigit, hsep, hquestion⟩
  · rw [collect_of_isDigit c hb, Body.digit]
    by_cases hcount : c.count < maxParams
    · rw [dif_pos hcount, Vector.getElem_set]
      by_cases here : c.count = i
      · simp [here, hb]
      · have apart : ¬ i = c.count := fun e => here e.symm
        simp [here, apart]
    -- past the last parameter kept, there is none to change
    · have apart : ¬ i = c.count := by omega
      rw [dif_neg hcount, if_neg (fun h => apart h.2)]
  · rw [collect_semicolon, if_neg (fun h => absurd h.1 (by decide)), Body.separator]
  · rw [collect_question, if_neg (fun h => absurd h.1 (by decide)), Body.questionMark]
  · rw [collect_of_junk c hdigit hsep hquestion, if_neg (fun h => hdigit h.1)]

/-- Only a separator counts. -/
theorem count_collect (c : Body) (b : UInt8) :
    (collect c b).count = if b = semicolon then min maxParams (c.count + 1) else c.count := by
  rcases body_byte_cases b with hb | rfl | rfl | ⟨hdigit, hsep, hquestion⟩
  · rw [collect_of_isDigit c hb, if_neg (ne_of_isDigit hb rfl), Body.digit]
    split <;> rfl
  · rfl
  · rfl
  · rw [collect_of_junk c hdigit hsep hquestion, if_neg hsep]

/-- Only a question mark makes a sequence private. -/
theorem isPrivate_collect (c : Body) (b : UInt8) :
    (collect c b).isPrivate = (c.isPrivate || decide (b = question)) := by
  rcases body_byte_cases b with hb | rfl | rfl | ⟨hdigit, hsep, hquestion⟩
  · rw [collect_of_isDigit c hb, decide_eq_false (ne_of_isDigit hb rfl), Bool.or_false,
      Body.digit]
    split <;> rfl
  · exact (Bool.or_false c.isPrivate).symm
  · exact (Bool.or_true c.isPrivate).symm
  · rw [collect_of_junk c hdigit hsep hquestion, decide_eq_false hquestion, Bool.or_false]

theorem body_ext {c d : Body} (hparams : ∀ i, (hi : i < maxParams) → c.params[i] = d.params[i])
    (hcount : c.count = d.count) (hprivate : c.isPrivate = d.isPrivate) : c = d := by
  rw [Body.mk.injEq]
  exact ⟨Vector.ext hparams, hcount, hprivate⟩

theorem ofBytes_nil : Body.ofBytes [] = Body.empty := by
  refine body_ext (fun i hi => ?_) rfl rfl
  simp [Body.ofBytes, Body.empty, field_nil, decimal_nil]

/-- **A byte takes what the bytes before it amount to to what the bytes with it
amount to.** -/
theorem collect_ofBytes (body : List UInt8) (b : UInt8) :
    collect (Body.ofBytes body) b = Body.ofBytes (body ++ [b]) := by
  have hcount : (body ++ [b]).count semicolon =
      body.count semicolon + if b = semicolon then 1 else 0 := by
    rw [List.count_append, List.count_singleton]
    simp
  refine body_ext (fun i hi => ?_) ?_ ?_
  · rw [getElem_params_collect]
    simp only [Body.ofBytes, Vector.getElem_ofFn, field_append_singleton]
    -- within the fields kept, the capped count of separators is the count itself
    have hlast : i = min maxParams (body.count semicolon) ↔ i = body.count semicolon := by omega
    by_cases hb : isDigit b = true
    · have hsep : b ≠ semicolon := ne_of_isDigit hb rfl
      by_cases here : i = body.count semicolon
      · rw [if_pos ⟨hb, hlast.2 here⟩, if_pos ⟨hsep, here⟩, decimal_append_singleton, if_pos hb,
          min_paramLimit_digit]
      · rw [if_neg (fun h => here (hlast.1 h.2)), if_neg (fun h => here h.2)]
    · rw [if_neg (fun h => hb h.1)]
      split
      · rw [decimal_append_singleton, if_neg hb]
      · rfl
  · rw [count_collect]
    simp only [Body.ofBytes, hcount]
    split <;> omega
  · rw [isPrivate_collect]
    by_cases hb : b = question
    · simp [Body.ofBytes, hb]
    · have apart : question ≠ b := fun e => hb e.symm
      simp [Body.ofBytes, hb, apart]

end Csi

namespace Parser

open Csi

/-! ## Whole sequences -/

theorem isFinal_iff (b : UInt8) : isFinal b = true ↔ 0x40 ≤ b ∧ b ≤ 0x7D := by
  simp only [isFinal, Bool.and_eq_true, decide_eq_true_eq]

theorem isFinal_eq_false {b : UInt8} (h : ¬ (0x40 ≤ b ∧ b ≤ 0x7D)) : isFinal b = false := by
  rw [← Bool.not_eq_true, isFinal_iff]
  exact h

/-- A body extends what has been collected, and answers nothing. -/
theorem feedAll_body (read body : List UInt8) (h : IsBody body) :
    (sequence (Body.ofBytes read)).feedAll body =
      (sequence (Body.ofBytes (read ++ body)), .replicate body.length .none) := by
  -- on the body, with what was read before it moving along
  induction body generalizing read with
  | nil => rw [feedAll_nil, List.append_nil, List.length_nil, List.replicate_zero]
  | cons b body ih =>
    have hb : isFinal b = false := isFinal_eq_false (h b List.mem_cons_self)
    have hbody : IsBody body := fun a ha => h a (List.mem_cons_of_mem b ha)
    rw [feedAll_cons, feed_sequence_of_not_final _ hb, collect_ofBytes, ih _ hbody,
      List.append_assoc, List.singleton_append, List.length_cons, List.replicate_succ]

/-- **A whole sequence gives one action, with its last byte, and leaves the parser
as it began.** -/
theorem feedAll_sequence {body : List UInt8} {final : UInt8} (hbody : IsBody body)
    (hfinal : 0x40 ≤ final ∧ final ≤ 0x7D) :
    ground.feedAll (Ascii.esc :: bracket :: (body ++ [final])) =
      (ground, .replicate (body.length + 2) .none ++ [.csi (Csi.ofBytes body final)]) := by
  have hopen : (escape.feed bracket) = (sequence (Body.ofBytes []), .none) := by
    rw [ofBytes_nil]
    rfl
  have hescape : ground.feed Ascii.esc = (escape, .none) := rfl
  rw [feedAll_cons, hescape, feedAll_cons, hopen, feedAll_append, feedAll_body [] body hbody,
    List.nil_append, feedAll_cons, feed_sequence_of_final _ ((isFinal_iff final).2 hfinal),
    feedAll_nil]
  rfl

/-! ## Where the parser stands -/

theorem feedAll_append_singleton (p : Parser) (bytes : List UInt8) (b : UInt8) :
    (p.feedAll (bytes ++ [b])).1 = ((p.feedAll bytes).1.feed b).1 := by
  rw [feedAll_append, feedAll_cons, feedAll_nil]

theorem feed_eq_escape {p : Parser} {b : UInt8} (h : (p.feed b).1 = escape) :
    p = ground ∧ b = Ascii.esc := by
  cases p with
  | ground =>
    refine ⟨rfl, ?_⟩
    by_contra hb
    rw [feed, readGround, if_neg hb] at h
    split at h <;> cases h
  | escape =>
    rw [feed, readEscape] at h
    split at h <;> cases h
  | sequence body =>
    rw [feed, readSequence] at h
    split at h <;> cases h

theorem feed_eq_sequence {p : Parser} {b : UInt8} {body : Csi.Body}
    (h : (p.feed b).1 = sequence body) :
    (p = escape ∧ b = bracket ∧ body = .empty) ∨
      ∃ before, p = sequence before ∧ isFinal b = false ∧ body = collect before b := by
  cases p with
  | ground =>
    rw [feed, readGround] at h
    split at h
    · cases h
    · split at h <;> cases h
  | escape =>
    rw [feed, readEscape] at h
    split at h
    · next hb => exact .inl ⟨rfl, hb, (Parser.sequence.inj h).symm⟩
    · cases h
  | sequence before =>
    rw [feed, readSequence] at h
    split at h
    · cases h
    · next hb => exact .inr ⟨before, rfl, Bool.not_eq_true _ ▸ hb, (Parser.sequence.inj h).symm⟩

/-- After an escape, the stream ends in that escape. -/
theorem stream_of_escape {stream : List UInt8} (h : (ground.feedAll stream).1 = escape) :
    ∃ pre, stream = pre ++ [Ascii.esc] ∧ (ground.feedAll pre).1 = ground := by
  induction stream using List.reverseRecOn with
  | nil => cases h
  | append_singleton pre b _ =>
    rw [feedAll_append_singleton] at h
    obtain ⟨hpre, rfl⟩ := feed_eq_escape h
    exact ⟨pre, rfl, hpre⟩

/-- **Inside a sequence, the stream ends in an escape, a bracket and the body that
has been collected.** -/
theorem stream_of_sequence {stream : List UInt8} {collected : Csi.Body}
    (h : (ground.feedAll stream).1 = sequence collected) :
    ∃ pre body, stream = pre ++ Ascii.esc :: bracket :: body ∧
      (ground.feedAll pre).1 = ground ∧ IsBody body ∧ collected = Body.ofBytes body := by
  induction stream using List.reverseRecOn generalizing collected with
  | nil => cases h
  | append_singleton stream b ih =>
    rw [feedAll_append_singleton] at h
    -- the last byte has opened the sequence, or has been collected
    rcases feed_eq_sequence h with ⟨hescape, rfl, rfl⟩ | ⟨before, hbefore, hb, rfl⟩
    · obtain ⟨pre, rfl, hpre⟩ := stream_of_escape hescape
      refine ⟨pre, [], ?_, hpre, ?_, ofBytes_nil.symm⟩
      · rw [List.append_assoc, List.singleton_append]
      · exact fun a ha => absurd ha List.not_mem_nil
    · obtain ⟨pre, body, rfl, hpre, hbody, rfl⟩ := ih hbefore
      refine ⟨pre, body ++ [b], ?_, hpre, ?_, collect_ofBytes body b⟩
      · rw [List.append_assoc, List.cons_append, List.cons_append]
      · intro a ha
        rcases List.mem_append.1 ha with ha | ha
        · exact hbody a ha
        · rw [List.mem_singleton.1 ha, ← isFinal_iff, hb]
          exact Bool.false_ne_true

/-! ## What is answered -/

/-- The answer to a byte depends on the bytes before it through the state alone. -/
theorem getElem?_feedAll (p : Parser) (bytes : List UInt8) (i : Nat) :
    (p.feedAll bytes).2[i]? =
      bytes[i]?.map fun b => ((p.feedAll (bytes.take i)).1.feed b).2 := by
  induction bytes generalizing p i with
  | nil => rfl
  | cons b bytes ih =>
    rw [feedAll_cons]
    rcases i with _ | i
    · rfl
    · rw [List.getElem?_cons_succ, List.getElem?_cons_succ, ih, List.take_succ_cons, feedAll_cons]

/-- Only a final byte inside a sequence is answered with a sequence. -/
theorem feed_eq_csi {p : Parser} {b : UInt8} {c : Csi} (h : (p.feed b).2 = .csi c) :
    ∃ body, p = sequence body ∧ isFinal b = true ∧ c = { body with final := b } := by
  cases p with
  | ground =>
    rw [feed, readGround] at h
    split at h
    · cases h
    · split at h <;> cases h
  | escape =>
    rw [feed, readEscape] at h
    split at h <;> cases h
  | sequence body =>
    rw [feed, readSequence] at h
    split at h
    · next hb => exact ⟨body, rfl, hb, (Action.csi.inj h).symm⟩
    · cases h

/-- The stream ends in the whole of a sequence, which was opened in the ground
state. -/
def EndsIn (stream : List UInt8) (c : Csi) : Prop :=
  ∃ pre body final, stream = pre ++ Ascii.esc :: bracket :: (body ++ [final]) ∧
    (ground.feedAll pre).1 = ground ∧ IsBody body ∧ (0x40 ≤ final ∧ final ≤ 0x7D) ∧
    c = Csi.ofBytes body final

/-- A sequence is reported where it ends. -/
theorem EndsIn.answered {stream : List UInt8} {c : Csi} (h : EndsIn stream c) :
    (ground.feedAll stream).2.getLast? = some (.csi c) := by
  obtain ⟨pre, body, final, rfl, hpre, hbody, hfinal, rfl⟩ := h
  rw [feedAll_append, hpre, feedAll_sequence hbody hfinal, ← List.append_assoc,
    List.getLast?_concat]

/-- What is reported as a sequence ends there. -/
theorem endsIn_of_answered {bytes : List UInt8} {i : Nat} {c : Csi}
    (h : (ground.feedAll bytes).2[i]? = some (.csi c)) : EndsIn (bytes.take (i + 1)) c := by
  rw [getElem?_feedAll] at h
  obtain ⟨b, hb, answer⟩ := Option.map_eq_some_iff.1 h
  -- the state before the byte says what the stream before it ends in
  obtain ⟨collected, hstate, hfinal, rfl⟩ := feed_eq_csi answer
  obtain ⟨pre, body, htake, hpre, hbody, rfl⟩ := stream_of_sequence hstate
  refine ⟨pre, body, b, ?_, hpre, hbody, (isFinal_iff b).1 hfinal, rfl⟩
  rw [List.take_add_one, hb, htake, Option.toList_some, List.append_assoc, List.cons_append,
    List.cons_append]

theorem length_feedAll (p : Parser) (bytes : List UInt8) :
    (p.feedAll bytes).2.length = bytes.length := by
  induction bytes generalizing p with
  | nil => rfl
  | cons b bytes ih => rw [feedAll_cons, List.length_cons, List.length_cons, ih]

/-- The answers to the first bytes are the first answers. -/
theorem answers_take (p : Parser) (bytes : List UInt8) (n : Nat) :
    (p.feedAll (bytes.take n)).2 = (p.feedAll bytes).2.take n := by
  induction bytes generalizing p n with
  | nil => rw [List.take_nil, feedAll_nil, List.take_nil]
  | cons b bytes ih =>
    rcases n with _ | n
    · rfl
    · rw [List.take_succ_cons, feedAll_cons, feedAll_cons, List.take_succ_cons, ih]

theorem answered_iff_endsIn (bytes : List UInt8) (i : Nat) (c : Csi) :
    (ground.feedAll bytes).2[i]? = some (.csi c) ↔
      i < bytes.length ∧ EndsIn (bytes.take (i + 1)) c := by
  constructor
  · intro h
    obtain ⟨hi, -⟩ := List.getElem?_eq_some_iff.1 h
    exact ⟨length_feedAll ground bytes ▸ hi, endsIn_of_answered h⟩
  · rintro ⟨hi, h⟩
    -- the answer at `i` is the last one to the stream cut off after `i`
    have last := h.answered
    have length : ((ground.feedAll bytes).2.take (i + 1)).length = i + 1 := by
      rw [List.length_take, length_feedAll]
      omega
    rw [answers_take, List.getLast?_eq_getElem?, length, Nat.add_sub_cancel,
      List.getElem?_take_of_lt (Nat.lt_succ_self i)] at last
    exact last

theorem feedAll_escape_other {b : UInt8} (h : b ≠ bracket) :
    ground.feedAll [Ascii.esc, b] = (ground, [.none, .none]) := by
  have hescape : ground.feed Ascii.esc = (escape, .none) := rfl
  have hswallow : escape.feed b = (ground, .none) := if_neg h
  rw [feedAll_cons, hescape, feedAll_cons, hswallow, feedAll_nil]

theorem feed_ground_of_ne_esc {b : UInt8} (h : b ≠ Ascii.esc) :
    ground.feed b =
      (ground, if 0x20 ≤ b ∧ b ≤ 0x7E then .print b else .control b) := by
  rw [feed, readGround, if_neg h]
  by_cases hb : 0x20 ≤ b ∧ b ≤ 0x7E
  · have printable : Ascii.isPrintable b = true := by simp [Ascii.isPrintable, hb]
    rw [if_pos printable, if_pos hb]
  · have other : ¬ Ascii.isPrintable b = true := by
      simpa only [Ascii.isPrintable, Bool.and_eq_true, decide_eq_true_eq] using hb
    rw [if_neg other, if_neg hb]

/-- **The parser recognises its grammar and nothing else.** A sequence opened in the
ground state is reported once, with its last byte, as what its body amounts to,
and leaves the parser as it began; an escape without a bracket takes one more byte
along and vanishes; any other byte in the ground state is text or a control. And
an answer is a sequence only where the stream ends in one. -/
theorem recognises_exactly :
    (∀ body final, IsBody body → (0x40 ≤ final ∧ final ≤ 0x7D) →
      ground.feedAll (Ascii.esc :: bracket :: (body ++ [final])) =
        (ground, .replicate (body.length + 2) .none ++ [.csi (Csi.ofBytes body final)])) ∧
    (∀ b, b ≠ bracket → ground.feedAll [Ascii.esc, b] = (ground, [.none, .none])) ∧
    (∀ b, b ≠ Ascii.esc → ground.feed b =
      (ground, if 0x20 ≤ b ∧ b ≤ 0x7E then .print b else .control b)) ∧
    ∀ bytes i c, (ground.feedAll bytes).2[i]? = some (.csi c) ↔
      i < bytes.length ∧ EndsIn (bytes.take (i + 1)) c := by
  refine ⟨?_, ?_, ?_, answered_iff_endsIn⟩
  · exact fun _ _ hbody hfinal => feedAll_sequence hbody hfinal
  · exact fun _ h => feedAll_escape_other h
  · exact fun _ h => feed_ground_of_ne_esc h

/-- The sequence that shows the cursor, with junk and a number too great: the junk
is passed over and the number stops at the limit. -/
theorem recognises_private_sequence :
    let body : List UInt8 := [0x3F, 0x32, 0x07, 0x35, 0x3B, 0xC4, 0x37, 0x30, 0x30, 0x30, 0x30]
    IsBody body ∧ ground.feedAll (Ascii.esc :: bracket :: (body ++ [0x68])) =
      (ground, .replicate 13 .none ++
        [.csi { params := #v[25, 65535, 0, 0, 0], count := 1, isPrivate := true, final := 0x68 }]) := by
  intro body
  have hbody : IsBody body := by decide
  refine ⟨hbody, ?_⟩
  rw [recognises_exactly.1 body 0x68 hbody (by decide)]
  decide

end Parser

end SerialTerminal
