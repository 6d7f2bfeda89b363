import ScriptExcerpt.Proofs.Lexeme.Alike
import ScriptExcerpt.Proofs.Lexeme.Extent

/-!
# Texts without invisible characters

Outside quotations a recognizer passes over invisible characters. So a text is
read like what is visible of it (`Text.visible`), as far as no quotation opens in
it (`Text.IsQuoteless`). The two part in one place: an invisible character keeps a
newline from completing the carriage return before it, so that the visible text
may have one line end for two.

* `Cursor.Sifted`: cursors in the two texts, in the middle of a line.
* `Cursor.skipGapFrom_sifted`: gaps in the two texts.
* `respected_sifted`: what the recognizers make of lexemes in them.
-/

namespace ScriptExcerpt

open Text

/-! ## Texts -/

namespace Text

/-- What is visible of the text. -/
def visible (cs : List Char) : List Char :=
  cs.filter fun c => !isInvisible c

/-- No quotation opens in the text. -/
def IsQuoteless (cs : List Char) : Prop :=
  ∀ c ∈ cs, isQuote c = false

instance (cs : List Char) : Decidable (IsQuoteless cs) :=
  List.decidableBAll (fun c => isQuote c = false) cs

variable {c : Char} {cs : List Char}

theorem visible_cons_of_isInvisible (h : isInvisible c) : visible (c :: cs) = visible cs :=
  List.filter_cons_of_neg (by simp [h])

theorem visible_cons (h : isInvisible c = false) : visible (c :: cs) = c :: visible cs :=
  List.filter_cons_of_pos (by simp [h])

theorem visible_append (a b : List Char) : visible (a ++ b) = visible a ++ visible b :=
  List.filter_append ..

theorem visible_visible (cs : List Char) : visible (visible cs) = visible cs := by
  simp [visible, List.filter_filter]

theorem visible_eq_nil_iff : visible cs = [] ↔ ∀ c ∈ cs, isInvisible c := by
  simp [visible, List.filter_eq_nil_iff]

theorem visible_eq_self_iff : visible cs = cs ↔ ∀ c ∈ cs, isInvisible c = false := by
  simp [visible, List.filter_eq_self]

theorem isInvisible_of_isLineEnd (h : isLineEnd c) : isInvisible c = false := by
  rw [← Bool.not_eq_true]
  intro hc
  simp [not_isLineEnd_of_isInvisible hc] at h

/-- The line ends of a text are visible. -/
theorem exists_isLineEnd_visible (cs : List Char) :
    (∃ c ∈ visible cs, isLineEnd c) ↔ ∃ c ∈ cs, isLineEnd c := by
  refine exists_congr fun c => and_congr_left fun hc => ?_
  rw [visible, List.mem_filter, isInvisible_of_isLineEnd hc]
  simp

/-- Without invisible characters, line ends may come together, but do not part. -/
theorem lineEndsBehind_visible_le {ret ret' : Bool} (h : ret → ret') (cs : List Char) :
    lineEndsBehind ret' (visible cs) ≤ lineEndsBehind ret cs := by
  induction cs generalizing ret ret' with
  | nil => exact Nat.le_refl _
  | cons c cs ih =>
    rw [lineEndsBehind]
    cases hc : isInvisible c with
    | true =>
      rw [visible_cons_of_isInvisible hc]
      have hret : (c == '\r') = false :=
        ne_return_of_not_isLineEnd (not_isLineEnd_of_isInvisible hc)
      rw [hret]
      exact Nat.le_add_left_of_le (ih fun he => absurd he Bool.false_ne_true)
    | false =>
      rw [visible_cons hc, lineEndsBehind]
      have hcount : (if isLineEnd c && !(ret' && c == '\n') then 1 else 0) ≤
          if isLineEnd c && !(ret && c == '\n') then 1 else 0 := by
        cases ret <;> cases ret' <;> simp at h ⊢
        grind
      exact Nat.add_le_add hcount (ih id)

theorem IsQuoteless.of_cons (h : IsQuoteless (c :: cs)) : IsQuoteless cs :=
  fun d hd => h d (List.mem_cons_of_mem c hd)

theorem IsQuoteless.append {a b : List Char} (ha : IsQuoteless a) (hb : IsQuoteless b) :
    IsQuoteless (a ++ b) :=
  List.forall_mem_append.2 ⟨ha, hb⟩

end Text

/-! ## Cursors -/

namespace Cursor

/-- The second cursor stands in the visible text of what the first one stands in, both in
    the middle of a line. -/
structure Sifted (a b : Cursor) : Prop where
  rest : b.rest = visible a.rest
  quoteless : IsQuoteless a.rest
  onLine : a.place.OnLine
  onLine' : b.place.OnLine

theorem Leads.quoteless {a b : Cursor} (h : a.Leads b) (ha : IsQuoteless a.rest) :
    IsQuoteless b.rest := by
  obtain ⟨u, hu, -⟩ := h
  exact fun c hc => ha c (hu ▸ List.mem_append_right u hc)

/-- The gap in the visible text ends where the other one does, or goes on over a newline
    that ends the other one: in the visible text it completes a carriage return. -/
theorem skipGapFrom_sifted {p q : Place} (h : p.afterReturn → q.afterReturn) (cs : List Char) :
    (skipGapFrom q (visible cs)).rest = visible (skipGapFrom p cs).rest ∨
      q.afterReturn = true ∧ ∃ place rest q', skipGapFrom p cs = ⟨place, '\n' :: rest⟩ ∧
        q'.afterReturn = false ∧ skipGapFrom q (visible cs) = skipGapFrom q' (visible rest) := by
  induction cs generalizing p q with
  | nil => exact .inl rfl
  | cons c cs ih =>
    rw [skipGapFrom]
    split
    · next hc =>
      -- Both gaps go on over the newline.
      obtain ⟨hret, rfl⟩ := Place.eq_newline_of_completes hc
      have hq : q.completes '\n' := by rw [Place.completes, h hret]; rfl
      rw [visible_cons rfl, skipGapFrom, if_pos hq]
      have hnext := @ih p.complete q.complete id
      exact hnext.imp_right fun hr => absurd hr.1 Bool.false_ne_true
    · next hc =>
      split
      · next hblank =>
        have hret : (p.past c).afterReturn = false :=
          ne_return_of_not_isLineEnd (not_isLineEnd_of_gap hblank)
        cases hi : isInvisible c with
        | true =>
          rw [visible_cons_of_isInvisible hi]
          exact ih (fun he => absurd (hret.symm.trans he) Bool.false_ne_true)
        | false =>
          have hq : ¬ q.completes c := by
            intro hq
            obtain rfl := (Place.eq_newline_of_completes hq).2
            exact absurd (not_isLineEnd_of_gap hblank) (by decide)
          have hnext := @ih (p.past c) (q.past c) id
          rw [visible_cons hi, skipGapFrom, if_neg hq, if_pos hblank]
          exact hnext.imp_right fun hr => absurd (hret.symm.trans hr.1) Bool.false_ne_true
      · next hink =>
        have hi : isInvisible c = false := by
          simp only [Bool.or_eq_true, not_or, Bool.not_eq_true] at hink
          exact hink.2
        rw [visible_cons hi, skipGapFrom]
        by_cases hq : q.completes c
        · obtain ⟨hret, rfl⟩ := Place.eq_newline_of_completes hq
          rw [if_pos hq]
          exact .inr ⟨hret, p.look, cs, q.complete, rfl, rfl, rfl⟩
        · rw [if_neg hq, if_neg hink]
          exact .inl rfl

end Cursor

/-! ## Recognizers -/

section Recognizers

variable {σ ρ ε : Type}

/-- The second text is what is visible of the first one. -/
abbrev Text.IsVisibleOf (u u' : List Char) : Prop := u' = visible u

/-- A recognizer that passes over invisible characters, and keeps to its line, goes along
    with the two texts. -/
theorem Recognizer.OneLine.isSimulation_sifted {M : Recognizer σ ρ ε} {settled : σ → Prop}
    (hM : M.OneLine settled) (hskips : ∀ s, M.skips s) :
    M.IsSimulation Cursor.Sifted IsVisibleOf where
  nil_nil := rfl
  look hab := ⟨hab.rest, hab.quoteless, ⟨rfl, hab.onLine.afterReturn⟩,
    ⟨rfl, hab.onLine'.afterReturn⟩⟩
  nil hab := hab.rest
  cons := by
    intro p c cs b hab
    obtain ⟨q, rest⟩ := b
    obtain ⟨rfl, hquote, hp, hq⟩ := hab
    have hc := hp.not_completes c
    have hc' := hq.not_completes c
    cases hi : isInvisible c with
    | true =>
      rw [visible_cons_of_isInvisible hi]
      refine .skip hc hi hskips ⟨rfl, hquote.of_cons, ?_, hq⟩ ?_
      · exact p.onLine_past (not_isLineEnd_of_isInvisible hi)
      · rintro u _ rfl
        rw [IsVisibleOf, visible_append, visible_cons_of_isInvisible hi]
        exact (List.append_nil _).symm
    | false =>
      rw [visible_cons hi]
      cases hline : isLineEnd c with
      | true => exact .ends hc hc' hi hi (fun _ => rfl) fun s => hM.ends hline
      | false =>
        refine .both hc hc' rfl (fun _ => rfl)
          ⟨rfl, hquote.of_cons, p.onLine_past hline, q.onLine_past hline⟩ ?_
        rintro u _ rfl
        rw [IsVisibleOf, visible_append, visible_cons hi]
        rfl

/-- A block comment goes on over a newline, be it one that ends a line or one that completes
    a carriage return. -/
theorem Comment.run_block_sifted {star : Bool} {mark mark' : Cursor} {p q : Place}
    (h : p.afterReturn → q.afterReturn) (hstar : q.afterReturn → star = false) (cs : List Char) :
    let o := blockRecognizer.run star mark p cs
    let o' := blockRecognizer.run star mark' q (visible cs)
    o'.verdict = o.verdict ∧ ∀ r, o.verdict = .ok r → o'.cursor.rest = visible o.cursor.rest := by
  induction cs generalizing star mark mark' p q with
  | nil => exact ⟨rfl, fun _ he => nomatch he⟩
  | cons c cs ih =>
    have hskips (star : Bool) : blockRecognizer.skips star = true := rfl
    by_cases hc : p.completes c
    · obtain ⟨hret, rfl⟩ := Place.eq_newline_of_completes hc
      have hq : q.completes '\n' := by rw [Place.completes, h hret]; rfl
      rw [visible_cons rfl, Recognizer.run, if_pos hc, Recognizer.run, if_pos hq]
      exact @ih star mark mark' p.complete q.complete id (fun he => absurd he Bool.false_ne_true)
    · rw [Recognizer.run, if_neg hc, hskips, Bool.true_and]
      cases hi : isInvisible c with
      | true =>
        have hret : (p.past c).afterReturn = false :=
          ne_return_of_not_isLineEnd (not_isLineEnd_of_isInvisible hi)
        rw [visible_cons_of_isInvisible hi, if_pos rfl]
        exact ih (fun he => absurd (hret.symm.trans he) Bool.false_ne_true) hstar
      | false =>
        rw [visible_cons hi, if_neg Bool.false_ne_true, Recognizer.run]
        by_cases hq : q.completes c
        · -- The newline, which is no star, is taken in the one text and passed over in the
          -- other one.
          obtain ⟨hret, rfl⟩ := Place.eq_newline_of_completes hq
          obtain rfl := hstar hret
          rw [if_pos hq]
          exact @ih false ⟨p.past '\n', cs⟩ mark' (p.past '\n') q.complete id
            (fun he => absurd he Bool.false_ne_true)
        · have hstep : blockRecognizer.step star c =
              if star && c = '/' then .finish () else .take (c = '*') := rfl
          rw [if_neg hq, hi, Bool.and_false, if_neg Bool.false_ne_true, hstep]
          by_cases hend : star && c = '/'
          · rw [if_pos hend]
            exact ⟨rfl, fun _ _ => rfl⟩
          · rw [if_neg hend]
            refine ih id fun he => ?_
            obtain rfl : c = '\r' := beq_iff_eq.1 he
            rfl

theorem Comment.respects_block_sifted :
    blockRecognizer.Respects Cursor.Sifted fun _ _ => True := by
  rintro star a ⟨q, rest⟩ ⟨rfl, hquote, hp, hq⟩
  have hrun := @run_block_sifted star a ⟨q, visible a.rest⟩ a.place q
    (fun he => absurd (hp.afterReturn.symm.trans he) Bool.false_ne_true)
    (fun he => absurd (hq.afterReturn.symm.trans he) Bool.false_ne_true) a.rest
  refine selfClosing_block.alike hrun.1 fun hr => ?_
  obtain ⟨u, hu⟩ := blockRecognizer.leads_runFrom star a
  obtain ⟨u', hu'⟩ := blockRecognizer.leads_runFrom star ⟨q, visible a.rest⟩
  exact ⟨⟨hrun.2 _ hr, hu.leads.quoteless hquote, (selfClosing_block.extent hr).onLine,
    (selfClosing_block.extent (hrun.1.trans hr)).onLine⟩, u, u', hu, hu', trivial⟩

/-- What the recognizers make of lexemes in the visible text. -/
theorem respected_sifted (v : Version) : Lexeme.Respected Cursor.Sifted IsVisibleOf v where
  nil_nil := rfl
  name := (Name.oneLine.isSimulation_sifted fun _ => rfl).respects
  operator _ :=
    ((Operator.oneLine fun _ hp _ hc =>
      Operator.not_isLineEnd_of_mem_spelling hp hc).isSimulation_sifted fun _ => rfl).respects
  number := ((Number.oneLine v).isSimulation_sifted fun _ => rfl).respects.anyhow
  lineComment := (Comment.oneLine_line.isSimulation_sifted fun _ => rfl).respects.anyhow
  blockComment := Comment.respects_block_sifted
  regExp := (RegExp.oneLine.isSimulation_sifted fun _ => rfl).respects.anyhow

end Recognizers

end ScriptExcerpt
