import ScriptExcerpt.Proofs.Lexeme.LineStart

/-!
# The last characters of lexemes

A lexeme that ends with a character of its own, as a quotation does, or at its mark, as a symbol
does, ends visibly. Words, numbers and regular expressions are open-ended: they end because what
follows does not belong to them. Invisible characters between the two do not belong to the lexeme
either. But at the end of the script nothing tells them from the lexeme, and they are counted in
(`Text.unseen`).

* `Recognizer.OpenEnded.trails_run`: where the run of an open-ended lexeme ends, by induction on
  the text;
* `trails_lexemeAt`, `LexemeReader.trails_readRegExp`: where lexemes end.
-/

namespace ScriptExcerpt

open Text
open Quotation (EndsVisibly endsVisibly_append)

/-! ## Texts -/

namespace Text

variable {u w : List Char} {c : Char}

/-- The text has a last character, and that can be seen. -/
def EndsSeen (w : List Char) : Prop :=
  ∃ c ∈ w.getLast?, isInvisible c = false

theorem EndsSeen.append_left (h : EndsSeen w) (u : List Char) : EndsSeen (u ++ w) := by
  obtain ⟨c, hc, hseen⟩ := h
  refine ⟨c, ?_, hseen⟩
  rw [List.getLast?_append, Option.mem_def.1 hc]
  rfl

theorem endsSeen_cons (hc : isInvisible c = false) (h : EndsVisibly w) : EndsSeen (c :: w) := by
  cases hlast : w.getLast? with
  | some d => exact EndsSeen.append_left ⟨d, hlast, h d hlast⟩ [c]
  | none =>
    obtain rfl := List.getLast?_eq_none_iff.1 hlast
    exact ⟨c, rfl, hc⟩

/-- The text, if nothing in it can be seen. -/
def unseen (cs : List Char) : List Char :=
  if cs.all isInvisible then cs else []

theorem unseen_of_isInvisible (h : ∀ c ∈ w, isInvisible c) : unseen w = w :=
  if_pos (List.all_eq_true.2 h)

theorem unseen_of_mem (hc : isInvisible c = false) (h : c ∈ w) : unseen w = [] := by
  refine if_neg fun hall => ?_
  exact absurd (List.all_eq_true.1 hall c h) (by rw [hc]; exact Bool.false_ne_true)

/-- With what cannot be seen behind it, a text that ended visibly does no longer. -/
theorem endsSeen_append_iff (hw : EndsSeen w) (openEnded : Bool) :
    EndsSeen (w ++ if openEnded then unseen u else []) ↔
      ¬ (openEnded ∧ u ≠ [] ∧ ∀ c ∈ u, isInvisible c) := by
  constructor
  · rintro ⟨c, hc, hseen⟩ ⟨hopen, hne, hall⟩
    rw [if_pos hopen, unseen_of_isInvisible hall, List.getLast?_append,
      List.getLast?_eq_some_getLast hne, Option.some_or] at hc
    obtain rfl : u.getLast hne = c := Option.some.inj hc
    exact absurd ((hall _ (List.getLast_mem hne)).symm.trans hseen) (by decide)
  · intro hnot
    have hnil : (if openEnded then unseen u else []) = [] := by
      cases openEnded with
      | false => rfl
      | true =>
        rw [if_pos rfl]
        by_cases hall : ∀ c ∈ u, isInvisible c
        · have hu : u = [] := Classical.not_not.1 fun hne => hnot ⟨rfl, hne, hall⟩
          rw [hu]
          rfl
        · obtain ⟨c, hc, hseen⟩ : ∃ c ∈ u, isInvisible c = false := by simpa using hall
          exact unseen_of_mem hseen hc
    rwa [hnil, List.append_nil]

theorem isInvisible_of_mem_unseen (h : c ∈ unseen w) : isInvisible c := by
  rw [unseen] at h
  split at h
  · next hall => exact List.all_eq_true.1 hall c h
  · simp at h

end Text

/-- From the cursor `a` on, the lexeme has a text that ends visibly, and ends there, at the offset
    `stop`. If it is open-ended, and nothing that follows in the script can be seen, it ends with
    the script. -/
def Lexeme.Trails (openEnded : Bool) (a : Cursor) (stop : Nat) : Prop :=
  ∃ core rest m, a.rest = core ++ rest ∧ EndsVisibly core ∧
    a.Passes (core ++ if openEnded then unseen rest else []) m ∧ m.offset = stop

/-! ## Runs -/

namespace Recognizer

variable {σ ρ ε : Type} {M : Recognizer σ ρ ε} {settled : σ → Prop}

/-- What is recognized has no last character of its own; invisible characters are always passed
    over. -/
structure OpenEnded (M : Recognizer σ ρ ε) : Prop where
  skips {s : σ} : M.skips s = true
  finish {s : σ} {c : Char} {r : ρ} : M.step s c ≠ .finish r
  back {s : σ} {r : ρ} : M.atEnd s ≠ .back r

/-- The text from the mark on that belongs to the lexeme ends visibly. Behind the mark of a state
    that is settled nothing was seen, so that at the end of the script it is counted in. -/
theorem OpenEnded.trails_run (hopen : M.OpenEnded) (hM : M.OneLine settled) {s : σ} {mark : Cursor}
    {p : Place} {gap cs : List Char} {r : ρ} (hp : p.OnLine) (hgap : mark.Passes gap ⟨p, cs⟩)
    (hs : settled s → ∀ c ∈ gap, isInvisible c) (h : (M.run s mark p cs).verdict = .ok r) :
    ∃ core rest, mark.rest = core ++ rest ∧ EndsVisibly core ∧
      mark.Passes (core ++ unseen rest) (M.run s mark p cs).cursor := by
  induction cs generalizing s mark p gap with
  | nil =>
    rw [run] at h ⊢
    cases he : M.atEnd s with
    | accept r' =>
      rw [he] at h
      have hrest : mark.rest = gap := by rw [hgap.1, List.append_nil]
      refine ⟨[], gap, hrest, by simp [EndsVisibly], ?_⟩
      rwa [List.nil_append, unseen_of_isInvisible (hs (hM.accept he))]
    | back r' => exact absurd he hopen.back
    | fail e => simp [he] at h
  | cons c cs ih =>
    have hpc := hp.not_completes c
    have hpast := hgap.trans (Cursor.passes_past hpc cs)
    rw [run, if_neg hpc, hopen.skips, Bool.true_and] at h ⊢
    cases hc : isInvisible c with
    | true =>
      rw [hc, if_pos rfl] at h
      rw [if_pos rfl]
      refine ih (p.onLine_past (not_isLineEnd_of_isInvisible hc)) hpast (fun ht d hd => ?_) h
      rcases List.mem_append.1 hd with hd | hd
      · exact hs ht d hd
      · rwa [List.mem_singleton.1 hd]
    | false =>
      rw [hc, if_neg Bool.false_ne_true] at h
      rw [if_neg Bool.false_ne_true]
      have hline : ¬ (M.step s c).Ends → (p.past c).OnLine := fun hends =>
        p.onLine_past (hM.not_isLineEnd hends)
      cases he : M.step s c with
      | take t =>
        rw [he] at h hline
        obtain ⟨core, rest, hrest, hcore, hpasses⟩ := ih (hline id) (.refl _) (by simp) h
        refine ⟨gap ++ [c] ++ core, rest, ?_, (endsVisibly_append hc).append hcore, ?_⟩
        · rw [hpast.1, hrest, ← List.append_assoc]
        · rw [List.append_assoc]
          exact hpast.trans hpasses
      | probe t =>
        rw [he] at h hline
        exact ih (hline id) hpast (fun ht => absurd ht (hM.probe he)) h
      | finish r' => exact absurd he hopen.finish
      | stop r' =>
        -- The character that ends the lexeme can be seen.
        have hseen : unseen (gap ++ c :: cs) = [] := unseen_of_mem hc (by simp)
        refine ⟨[], gap ++ c :: cs, hgap.1, by simp [EndsVisibly], ?_⟩
        rw [List.nil_append, hseen]
        exact (Cursor.Passes.refl mark).look
      | fail e => simp [he] at h
      | refuse e => simp [he] at h

theorem OpenEnded.trails (hopen : M.OpenEnded) (hM : M.OneLine settled) {s : σ} {cur : Cursor}
    {r : ρ} (hcur : cur.place.OnLine) (h : (M.runFrom s cur).verdict = .ok r) :
    Lexeme.Trails true cur (M.runFrom s cur).cursor.offset := by
  obtain ⟨core, rest, hrest, hcore, hpasses⟩ :=
    hopen.trails_run hM hcur (.refl cur) (fun _ => by simp) h
  exact ⟨core, rest, _, hrest, hcore, hpasses, rfl⟩

end Recognizer

theorem Name.openEnded : Name.recognizer.OpenEnded where
  skips := rfl
  finish {s c r} h := by cases s <;> simp only [recognizer, step] at h <;> grind
  back {s r} h := by cases s <;> simp [recognizer, atEnd] at h

theorem Number.openEnded (v : Version) : (Number.recognizer v).OpenEnded where
  skips := rfl
  finish := ne_finish
  back {s r} h := by cases s <;> simp [recognizer, atEnd] at h

theorem RegExp.openEnded : RegExp.recognizer.OpenEnded where
  skips := rfl
  finish {s c r} h := by cases s <;> simp only [recognizer, step, stepBody] at h <;> grind
  back {s r} h := by cases s <;> simp [recognizer, atEnd] at h

/-! ## Lexemes -/

/-- A lexeme of the kind ends because what follows does not belong to it. -/
def Kind.isOpenEnded (k : Kind) : Bool :=
  k.isWord || k = .number || k = .regExp

namespace Lexeme

variable {v : Version} {lineIsBlank : Bool} {c : Char} {behind a : Cursor} {k : Kind} {stop : Nat}
  {u : List Char}

/-- A text that ends visibly, and is not open-ended. -/
theorem trails_of_passes {m : Cursor} (h : a.Passes u m) (hu : EndsVisibly u)
    (hstop : m.offset = stop) : Trails false a stop :=
  ⟨u, m.rest, m, h.1, hu, by simpa using h, hstop⟩

theorem trails_name (hb : behind.place.OnLine) (h : (name v c behind).verdict = .ok k) :
    Trails k.isOpenEnded behind (name v c behind).stop := by
  have hk : k.isOpenEnded = true := by simp [Kind.isOpenEnded, (ensures_name v c behind).ok h]
  rw [hk]
  rw [name] at h ⊢
  split
  · next ho => exact Name.openEnded.trails Name.oneLine hb ho
  · next ho => simp [ho] at h

/-- A number is open-ended; the point that stands alone is not. -/
theorem trails_number (hb : behind.place.OnLine) (h : (number v c behind).verdict = .ok k) :
    Trails k.isOpenEnded behind (number v c behind).stop := by
  rw [number] at h ⊢
  split
  · next ho =>
    simp only [ho] at h
    obtain rfl := Except.ok.inj h
    exact (Number.openEnded v).trails (Number.oneLine v) hb ho
  · next ho =>
    simp only [ho] at h
    obtain rfl := Except.ok.inj h
    exact trails_of_passes (.refl behind) (by simp [EndsVisibly]) rfl
  · next ho => simp [ho] at h

theorem trails_quotation (hquote : isQuote c) (h : (quotation c behind).verdict = .ok k) :
    Trails k.isOpenEnded behind (quotation c behind).stop := by
  have hk : k.isOpenEnded = false := by
    rcases (ensures_quotation c behind).ok h with rfl | rfl <;> rfl
  rw [hk]
  rw [quotation] at h ⊢
  split
  · next ho =>
    obtain ⟨w, d, s, hw, hfinish⟩ :=
      (Quotation.selfClosing (not_isLineEnd_of_isQuote hquote)).exists_finish ho
    obtain rfl := Quotation.eq_of_finish hfinish
    exact trails_of_passes hw (endsVisibly_append (inked_of_isQuote hquote).not_invisible) rfl
  · next ho => simp [ho] at h

theorem trails_symbol (hb : behind.place.OnLine) (hk : k.isTrivia = false)
    (h : (symbol (Operator.spellings v lineIsBlank) c behind).verdict = .ok k) :
    Trails k.isOpenEnded behind (symbol (Operator.spellings v lineIsBlank) c behind).stop := by
  obtain ⟨-, -, w, m, hw, hpasses, hstop, -⟩ :=
    Operator.spells_of_symbol Operator.inked_spellings hb h hk
  have hsymbol : k.isOpenEnded = false := by
    have hall : ∀ p ∈ Operator.spellings v lineIsBlank, p.2.isOpenEnded = false := by
      cases v <;> cases lineIsBlank <;> decide
    exact hall _ (Operator.mem_of_kindOf? hw.kind)
  rw [hsymbol]
  exact trails_of_passes hpasses (fun d hd => hw.last hd) hstop

end Lexeme

/-- Where a lexeme ends that the grammar sees. -/
theorem trails_lexemeAt {v : Version} {lineIsBlank : Bool} {c : Char} {behind : Cursor} {k : Kind}
    (hb : behind.place.OnLine) (hk : k.isTrivia = false)
    (h : (lexemeAt v lineIsBlank c behind).verdict = .ok k) :
    Lexeme.Trails k.isOpenEnded behind (lexemeAt v lineIsBlank c behind).stop := by
  revert h
  refine lexemeAt_cases
    (P := fun l => l.verdict = .ok k → Lexeme.Trails k.isOpenEnded behind l.stop)
    (fun _ => ?_) (fun _ => ?_) (fun hquote => ?_) ?_
  · exact Lexeme.trails_name hb
  · exact Lexeme.trails_number hb
  · exact Lexeme.trails_quotation hquote
  · exact Lexeme.trails_symbol hb hk

/-! ## Readers -/

namespace LexemeReader

variable {r r' : LexemeReader} {equals : Bool}

/-- The rest of a regular expression has a slash, so that it ends visibly and is not empty. -/
theorem trails_readRegExp (hr : r.cursor.place.OnLine) (h : r.readRegExp equals = (.ok (), r')) :
    ∃ core rest m, r.cursor.rest = core ++ rest ∧ EndsSeen core ∧
      r.cursor.Passes (core ++ unseen rest) m ∧ m.offset = r'.stop := by
  obtain ⟨u, hread, hslash, -⟩ := readRegExp_again hr h
  obtain ⟨ho, -, hstop, hcursor⟩ := readRegExp_ok h
  obtain ⟨core, rest, hrest, hcore, hpasses⟩ :=
    RegExp.openEnded.trails_run RegExp.oneLine hr (.refl _) (fun _ => by simp) ho
  rw [← Recognizer.runFrom, ← hcursor] at hpasses
  refine ⟨core, rest, _, hrest, ?_, hpasses, hstop.symm⟩
  obtain rfl : u = core ++ unseen rest :=
    List.append_cancel_right (hread.cursor.1.symm.trans hpasses.1)
  cases hlast : core.getLast? with
  | some c => exact ⟨c, hlast, hcore c hlast⟩
  | none =>
    obtain rfl := List.getLast?_eq_none_iff.1 hlast
    exact absurd (isInvisible_of_mem_unseen hslash) (by decide)

end LexemeReader

end ScriptExcerpt
