import Mathlib.Data.List.Pairwise
import Mathlib.Data.List.Perm.Basic
import PickIndent.Proofs.Document.Absorption
import PickIndent.Proofs.Document.Lexing

/-!
# Edits — the change as a list of replacements

The edits of a document replace whole lines, each of them one that changes.  They touch different lines, so in
whatever order they are made they lead to the lines of the result (`applyEdits_perm`, `applyEdits_editsFrom`),
and a document is its own result if no line is edited and its endings (`endings`) agree already.
-/

namespace PickIndent

/-! ### Making edits -/

/-- The lines with the stretch of one of them replaced. -/
def Edit.apply (e : Edit) (lines : List Text) : List Text :=
  lines.modify e.line fun l => l.take e.first ++ e.text ++ l.drop e.last

def applyEdits (es : List Edit) (lines : List Text) : List Text := es.foldl (fun ls e => e.apply ls) lines

theorem Edit.apply_comm {a b : Edit} (h : a.line ≠ b.line) (lines : List Text) :
    b.apply (a.apply lines) = a.apply (b.apply lines) :=
  List.modify_modify_ne _ _ lines h

/-- Edits of different lines may be made in any order. -/
theorem applyEdits_perm {es fs : List Edit} (h : fs.Perm es) (hline : es.Pairwise (·.line < ·.line))
    (lines : List Text) : applyEdits fs lines = applyEdits es lines := by
  have hne : es.Pairwise fun a b => a.line ≠ b.line := hline.imp Nat.ne_of_lt
  have hsymm : Std.Symm fun a b : Edit => a.line ≠ b.line := ⟨fun _ _ h => h.symm⟩
  refine h.foldl_eq' (fun a ha b hb ls => ?_) lines
  by_cases hab : a = b
  · rw [hab]
  · exact Edit.apply_comm (hne.forall (h.subset ha) (h.subset hb) hab) ls

/-! ### The edits from one list of lines to another -/

/-- **The edits are the lines that change**, each with the whole of its old text. -/
theorem mem_editsFrom {n : Nat} {olds news : List Text} {e : Edit} :
    e ∈ editsFrom n olds news ↔
      ∃ i old new, olds[i]? = some old ∧ news[i]? = some new ∧ old ≠ new ∧ e = ⟨n + i, 0, old.length, new⟩ := by
  induction olds generalizing n news with
  | nil => simp [editsFrom]
  | cons old olds ih =>
    cases news with
    | nil => simp [editsFrom]
    | cons new news =>
      have hlater : e ∈ editsFrom (n + 1) olds news ↔
          ∃ i old' new', (old :: olds)[i + 1]? = some old' ∧ (new :: news)[i + 1]? = some new' ∧ old' ≠ new' ∧
            e = ⟨n + (i + 1), 0, old'.length, new'⟩ := by
        simp only [ih, List.getElem?_cons_succ, Nat.add_assoc, Nat.add_comm 1]
      rw [← Nat.or_exists_add_one, ← hlater, editsFrom]
      by_cases hsame : old = new <;> simp [hsame]

theorem editsFrom_pairwise (n : Nat) (olds news : List Text) :
    (editsFrom n olds news).Pairwise (·.line < ·.line) := by
  fun_induction editsFrom n olds news with
  | case1 n _ _ _ ih => exact ih
  | case2 n old olds new news hne ih =>
    refine List.pairwise_cons.mpr ⟨fun e he => ?_, ih⟩
    obtain ⟨i, _, _, -, -, -, rfl⟩ := mem_editsFrom.mp he
    show n < n + 1 + i
    omega
  | case3 => exact .nil

theorem modify_append_cons {α : Type} (f : α → α) (front : List α) (a : α) (later : List α) :
    (front ++ a :: later).modify front.length f = front ++ f a :: later := by
  induction front with
  | nil => rfl
  | cons b front ih => rw [List.cons_append, List.length_cons, List.modify_succ_cons, ih, List.cons_append]

/-- **The edits lead from the one list to the other.** -/
theorem applyEdits_editsFrom {olds news : List Text} (h : olds.length = news.length) (front : List Text) :
    applyEdits (editsFrom front.length olds news) (front ++ olds) = front ++ news := by
  induction olds generalizing news front with
  | nil =>
    obtain rfl : news = [] := List.eq_nil_of_length_eq_zero h.symm
    rfl
  | cons old olds ih =>
    cases news with
    | nil => simp at h
    | cons new news =>
      have hlength : olds.length = news.length := by simpa using h
      have hlater := ih hlength (front ++ [new])
      rw [List.length_append, List.length_singleton, List.append_assoc, List.append_assoc,
        List.singleton_append, List.singleton_append] at hlater
      rw [editsFrom]
      by_cases hsame : old = new
      · rw [if_pos hsame, hsame, hlater]
      · have hedit : Edit.apply ⟨front.length, 0, old.length, new⟩ (front ++ old :: olds) =
            front ++ new :: olds := by
          rw [Edit.apply, modify_append_cons]
          simp
        rw [if_neg hsame, applyEdits, List.foldl_cons, hedit]
        exact hlater

theorem editsFrom_eq_nil_iff {n : Nat} {olds news : List Text} (h : olds.length = news.length) :
    editsFrom n olds news = [] ↔ olds = news := by
  constructor
  · intro hnil
    apply List.ext_getElem h
    intro i hold hnew
    by_contra hne
    have hmem := mem_editsFrom (n := n).mpr
      ⟨i, _, _, List.getElem?_eq_getElem hold, List.getElem?_eq_getElem hnew, hne, rfl⟩
    simp [hnil] at hmem
  · rintro rfl
    exact editsFrom_self n olds

/-! ### The endings of a text -/

/-- The line endings of a text, in order. -/
def endings : Text → List LineEnding
  | '\r' :: '\n' :: t => .crlf :: endings t
  | '\n' :: t => .lf :: endings t
  | _ :: t => endings t
  | [] => []

theorem endings_ending_append (e : LineEnding) (t : Text) : endings (e.text ++ t) = e :: endings t := by
  cases e <;> rfl

/-- A character that ends no line, in front of a text. -/
theorem endings_cons {c : Char} {t : Text} (hc : c ≠ '\n') (hcr : c = '\r' → t.head? ≠ some '\n') :
    endings (c :: t) = endings t := by
  rw [endings.eq_3]
  · rintro u rfl rfl
    exact hcr rfl rfl
  · exact hc

theorem endings_line_append {l : Text} (h : IsLine l) (t : Text) : endings (l ++ t) = endings t := by
  induction l with
  | nil => rfl
  | cons c l ih =>
    have hc : c ≠ '\n' := fun hc => h.feed (by simp [hc])
    cases l with
    | nil => exact endings_cons hc fun hcr => absurd (by rw [hcr]; rfl) h.last
    | cons d l =>
      have hd : d ≠ '\n' := fun hd => h.of_cons.feed (by simp [hd])
      rw [List.cons_append, endings_cons hc (by simp [hd]), ih h.of_cons]

theorem endings_joinLines (e : LineEnding) :
    ∀ ls : List Text, (∀ l ∈ ls, IsLine l) → endings (joinLines e ls) = List.replicate (ls.length - 1) e
  | [], _ => rfl
  | [l], h => by
    have hl := endings_line_append (h l (by simp)) []
    rw [List.append_nil] at hl
    rw [joinLines_singleton, hl]
    rfl
  | l :: m :: ls, h => by
    have ih := endings_joinLines e (m :: ls) fun k hk => h k (List.mem_cons_of_mem _ hk)
    rw [joinLines_cons_cons, endings_line_append (h l (by simp)), endings_ending_append, ih]
    rfl

/-! ### Joining the lines of a text -/

theorem splitLines_cons {c : Char} {t : Text} (hc : c ≠ '\n') (hcr : c = '\r' → t.head? ≠ some '\n') :
    splitLines (c :: t) = (splitLines t).modifyHead (c :: ·) := by
  have hunify : unifyEndings (c :: t) = c :: unifyEndings t := by
    cases t with
    | nil => rfl
    | cons d t => rw [unifyEndings, if_neg fun h => hcr h.1 (by rw [h.2]; rfl)]
  rw [splitLines, hunify, List.splitOn_cons_eq_if_modifyHead, if_neg (by simpa using hc), splitLines]

theorem splitLines_ending_append (e : LineEnding) (t : Text) :
    splitLines (e.text ++ t) = [] :: splitLines t := by
  rw [splitLines, unifyEndings_ending_append, List.splitOn_cons_eq_if_modifyHead, if_pos (by simp), splitLines]

theorem joinLines_cons (e : LineEnding) (l : Text) {ls : List Text} (h : ls ≠ []) :
    joinLines e (l :: ls) = l ++ (e.text ++ joinLines e ls) := by
  obtain ⟨m, ms, rfl⟩ := List.exists_cons_of_ne_nil h
  exact joinLines_cons_cons e l m ms

theorem joinLines_modifyHead (e : LineEnding) (c : Char) {ls : List Text} (h : ls ≠ []) :
    joinLines e (ls.modifyHead (c :: ·)) = c :: joinLines e ls := by
  obtain ⟨m, ms, rfl⟩ := List.exists_cons_of_ne_nil h
  cases ms with
  | nil => simp [joinLines_singleton]
  | cons k ms => simp [joinLines_cons_cons]

/-- Lines that all end alike come together again to the text. -/
theorem joinLines_splitLines {e : LineEnding} {t : Text} (h : ∀ x ∈ endings t, x = e) :
    joinLines e (splitLines t) = t := by
  fun_induction endings t with
  | case1 t ih =>
    obtain rfl : LineEnding.crlf = e := h _ (by simp)
    have hlines := splitLines_ending_append .crlf t
    rw [show '\r' :: '\n' :: t = LineEnding.crlf.text ++ t from rfl, hlines,
      joinLines_cons _ _ (splitLines_ne_nil t), ih fun x hx => h x (List.mem_cons_of_mem _ hx)]
    rfl
  | case2 t ih =>
    obtain rfl : LineEnding.lf = e := h _ (by simp)
    have hlines := splitLines_ending_append .lf t
    rw [show '\n' :: t = LineEnding.lf.text ++ t from rfl, hlines,
      joinLines_cons _ _ (splitLines_ne_nil t), ih fun x hx => h x (List.mem_cons_of_mem _ hx)]
    rfl
  | case3 c t hcrlf hc ih =>
    have hcr : c = '\r' → t.head? ≠ some '\n' := by
      rintro rfl hhead
      obtain ⟨u, rfl⟩ := List.head?_eq_some_iff.mp hhead
      exact hcrlf u rfl rfl
    rw [splitLines_cons hc hcr, joinLines_modifyHead _ _ (splitLines_ne_nil t), ih h]
  | case4 => rfl

/-! ### Edits and text -/

/-- The text of the edits is the formatted text, and an error is the same error. -/
theorem formatText_eq_map (o : Options) (t : Text) :
    formatText o t = (formatEdits o t).map Formatted.text := by
  rw [formatText, formatEdits]
  cases formatLines o (splitLines t) <;> rfl

theorem formatEdits_eq_ok {o : Options} {t : Text} {r : Formatted} (h : formatEdits o t = .ok r) :
    ∃ lines, formatLines o (splitLines t) = .ok lines ∧ r.text = joinLines (lineEnding t) lines ∧
      r.edits = editsFrom 0 (splitLines t) lines := by
  rw [formatEdits] at h
  obtain ⟨lines, hlines, rfl⟩ := map_eq_ok_iff.mp h
  exact ⟨lines, hlines, rfl, rfl⟩

/-- A formatted text is the text it came from if no line of it is edited and its endings agree. -/
theorem text_eq_iff {o : Options} {t : Text} {r : Formatted} (h : formatEdits o t = .ok r) :
    r.text = t ↔ r.edits = [] ∧ ∀ e ∈ endings t, e = lineEnding t := by
  obtain ⟨lines, hlines, htext, hedits⟩ := formatEdits_eq_ok h
  have hlength := length_formatLines hlines
  have hall := isLine_of_formatLines (fun l hl => feed_not_mem_splitLines hl) hlines
  have hne : lines ≠ [] := by
    rintro rfl
    exact splitLines_ne_nil t (List.eq_nil_of_length_eq_zero hlength.symm)
  rw [htext, hedits, editsFrom_eq_nil_iff hlength.symm]
  constructor
  · intro hsame
    refine ⟨?_, fun e he => ?_⟩
    · conv_lhs => rw [← hsame, splitLines_joinLines _ hne hall]
    · rw [← hsame, endings_joinLines _ _ hall] at he
      exact List.eq_of_mem_replicate he
  · rintro ⟨hsame, hendings⟩
    rw [← hsame, joinLines_splitLines hendings]

/-- **The edits and the text agree.**  Formatting by edits fails if and only if formatting the text does, with
the same report of a line at fault and no edits.  Where it succeeds it has the formatted text; its edits go
down the lines of the document, each from the first to the last character of a line that it changes; and
making them in any order gives the lines of the formatted text.  A document is its own result if and only if
there are no edits and all its lines end already as the lines of the result do. -/
theorem formatEdits_agrees (o : Options) (t : Text) :
    (∀ e, formatEdits o t = .error e ↔ formatText o t = .error e) ∧
    (∀ e, formatText o t = .error e → ∃ f, e = .structural f) ∧
    ∀ r, formatEdits o t = .ok r →
      formatText o t = .ok r.text ∧
      r.edits.Pairwise (·.line < ·.line) ∧
      (∀ e ∈ r.edits, ∃ old, (splitLines t)[e.line]? = some old ∧ e.first = 0 ∧ e.last = old.length ∧
        e.text ≠ old) ∧
      (∀ es : List Edit, es.Perm r.edits → joinLines (lineEnding t) (applyEdits es (splitLines t)) = r.text) ∧
      (r.text = t ↔ r.edits = [] ∧ ∀ e ∈ endings t, e = lineEnding t) := by
  have herror : ∀ e, formatEdits o t = .error e ↔ formatText o t = .error e := by
    intro e
    rw [formatText_eq_map]
    cases formatEdits o t <;> simp [Except.map]
  refine ⟨herror, fun e he => ?_, fun r hr => ?_⟩
  · obtain ⟨i, fault, -, rfl, -⟩ := exists_fault_of_formatEdits ((herror e).mpr he)
    exact ⟨_, rfl⟩
  · obtain ⟨lines, hlines, htext, hedits⟩ := formatEdits_eq_ok hr
    have hlength := length_formatLines hlines
    have hpairwise : r.edits.Pairwise (·.line < ·.line) := hedits ▸ editsFrom_pairwise 0 _ lines
    refine ⟨by rw [formatText_eq_map, hr]; rfl, hpairwise, fun e he => ?_, fun es hes => ?_, text_eq_iff hr⟩
    · rw [hedits] at he
      obtain ⟨i, old, new, hold, -, hne, rfl⟩ := mem_editsFrom.mp he
      exact ⟨old, by simpa using hold, rfl, rfl, hne.symm⟩
    · have hlead := applyEdits_editsFrom hlength.symm []
      rw [applyEdits_perm hes hpairwise, hedits, htext]
      exact congrArg _ hlead

theorem formatEdits_agrees_mixed :
    let t := "LOOP\r\n\nPRINT I\r\r\nREPEAT".toList
    let loop : Edit := ⟨0, 0, 4, "     LOOP".toList⟩
    let body : Edit := ⟨2, 0, 8, "        PRINT I".toList⟩
    let close : Edit := ⟨3, 0, 6, "     REPEAT".toList⟩
    let r : Formatted := ⟨"     LOOP\r\n\r\n        PRINT I\r\n     REPEAT".toList, [loop, body, close]⟩
    let stray := "END\nNEXT".toList
    let e : PassError := .structural ⟨1, .belowZero⟩
    formatEdits {} t = .ok r ∧ formatText {} t = .ok r.text ∧ r.edits.Pairwise (·.line < ·.line) ∧
      body ∈ r.edits ∧ (∃ old, (splitLines t)[body.line]? = some old ∧ body.first = 0 ∧
        body.last = old.length ∧ body.text ≠ old) ∧
      [close, loop, body].Perm r.edits ∧
      joinLines (lineEnding t) (applyEdits [close, loop, body] (splitLines t)) = r.text ∧
      (r.text = t ↔ r.edits = [] ∧ ∀ x ∈ endings t, x = lineEnding t) ∧
      formatEdits {} stray = .error e ∧ formatText {} stray = .error e ∧ ∃ f, e = .structural f := by
  intro t loop body close r stray e
  have hr : formatEdits {} t = .ok r := by decide +kernel
  have he : formatEdits {} stray = .error e := by decide +kernel
  have hperm : [close, loop, body].Perm r.edits := (List.perm_append_comm : ([close] ++ [loop, body]).Perm _)
  have hbody : body ∈ r.edits := by simp [r]
  obtain ⟨-, -, hok⟩ := formatEdits_agrees {} t
  obtain ⟨htext, hpairwise, hwhole, horder, hsame⟩ := hok r hr
  obtain ⟨herror, hstructural, -⟩ := formatEdits_agrees {} stray
  have he' := (herror e).mp he
  exact ⟨hr, htext, hpairwise, hbody, hwhole body hbody, hperm, horder _ hperm, hsame, he, he', hstructural e he'⟩

end PickIndent
