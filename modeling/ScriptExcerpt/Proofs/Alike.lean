import ScriptExcerpt.Proofs.Extent

/-!
# Texts that are read alike

Two texts may differ in what a recognizer takes no notice of. Then a relation
between cursors goes along with its runs over the two, character by character
(`Recognizer.IsSimulation`), and so does a relation between the texts that are
passed. From related cursors on, the runs come to the same verdict, and end at
related cursors (`Recognizer.Respects`).

* `Recognizer.Meets`: how two runs take a character together;
* `Recognizer.IsSimulation.respects`: what two runs come to.
-/

namespace ScriptExcerpt

open Text

variable (S : Cursor → Cursor → Prop) (T : List Char → List Char → Prop)

/-- The related cursors `m` and `m'` lie behind `a` and `b`, and the texts that lead
    to them are related, too. -/
structure Cursor.Abreast (a b m m' : Cursor) : Prop where
  related : S m m'
  passed : ∃ u u', a.Passes u m ∧ b.Passes u' m' ∧ T u u'

variable {S T}

namespace Cursor.Abreast

variable {a b m m' n n' : Cursor}

theorem refl (h : S a b) (hT : T [] []) : Abreast S T a b a b :=
  ⟨h, [], [], .refl a, .refl b, hT⟩

/-- Both cursors pass something more. -/
theorem step (h : Abreast S T a b m m') {v v' : List Char} (hv : m.Passes v n)
    (hv' : m'.Passes v' n') (hn : S n n') (hT : ∀ u u', T u u' → T (u ++ v) (u' ++ v')) :
    Abreast S T a b n n' := by
  obtain ⟨-, u, u', hu, hu', huu'⟩ := h
  exact ⟨hn, u ++ v, u' ++ v', hu.trans hv, hu'.trans hv', hT u u' huu'⟩

/-- Only the first one passes something more. -/
theorem stepLeft (h : Abreast S T a b m m') {v : List Char} (hv : m.Passes v n) (hn : S n m')
    (hT : ∀ u u', T u u' → T (u ++ v) u') : Abreast S T a b n m' :=
  h.step hv (.refl m') hn fun u u' hu => (List.append_nil u').symm ▸ hT u u' hu

end Cursor.Abreast

variable {σ ρ ε : Type}

variable (S T) in
/-- Two runs, from `a` and from `b` on, come to the same verdict, and if they recognize
    something, they end abreast of each other. -/
structure Outcome.Alike (a b : Cursor) (o o' : Outcome ρ ε) : Prop where
  verdict : o'.verdict = o.verdict
  cursor {r : ρ} : o.verdict = .ok r → Cursor.Abreast S T a b o.cursor o'.cursor
  taken {r : ρ} : o.verdict = .ok r →
    ∃ m m', Cursor.Abreast S T a b m m' ∧ m.offset = o.taken ∧ m'.offset = o'.taken

/-- Two runs that meet the same fault are alike. -/
theorem Outcome.Alike.of_error {a b : Cursor} {o o' : Outcome ρ ε} {e : ε}
    (h : o.verdict = .error e) (h' : o'.verdict = .error e) : Outcome.Alike S T a b o o' where
  verdict := h'.trans h.symm
  cursor hr := by simp [h] at hr
  taken hr := by simp [h] at hr

namespace Recognizer

variable (M : Recognizer σ ρ ε)

variable (S T) in
/-- From related cursors on, the runs are alike. -/
def Respects : Prop :=
  ∀ s a b, S a b → Outcome.Alike S T a b (M.runFrom s a) (M.runFrom s b)

variable (S T) in
/-- How two runs take the first character behind the first cursor: only the first run passes
    it, without reading it; both pass a character that they read alike; or both end there. -/
inductive Meets : Cursor → Cursor → Prop
  | complete {p : Place} {c : Char} {cs : List Char} {b : Cursor} : p.completes c →
    S ⟨p.complete, cs⟩ b → (∀ u u', T u u' → T (u ++ [c]) u') → Meets ⟨p, c :: cs⟩ b
  | skip {p : Place} {c : Char} {cs : List Char} {b : Cursor} : ¬ p.completes c →
    isInvisible c → (∀ s, M.skips s) → S ⟨p.past c, cs⟩ b →
      (∀ u u', T u u' → T (u ++ [c]) u') → Meets ⟨p, c :: cs⟩ b
  | both {p q : Place} {c d : Char} {cs ds : List Char} : ¬ p.completes c → ¬ q.completes d →
    isInvisible d = isInvisible c → (∀ s, M.step s d = M.step s c) →
      S ⟨p.past c, cs⟩ ⟨q.past d, ds⟩ → (∀ u u', T u u' → T (u ++ [c]) (u' ++ [d])) →
        Meets ⟨p, c :: cs⟩ ⟨q, d :: ds⟩
  | ends {p q : Place} {c d : Char} {cs ds : List Char} : ¬ p.completes c → ¬ q.completes d →
    isInvisible c = false → isInvisible d = false → (∀ s, M.step s d = M.step s c) →
      (∀ s, (M.step s c).Ends) → Meets ⟨p, c :: cs⟩ ⟨q, d :: ds⟩

variable (S T) in
/-- The relation `S` goes along with two runs, and `T` with the texts that they pass. -/
structure IsSimulation : Prop where
  nil_nil : T [] []
  look {a b : Cursor} : S a b → S a.look b.look
  nil {p : Place} {b : Cursor} : S ⟨p, []⟩ b → b.rest = []
  cons {p : Place} {c : Char} {cs : List Char} {b : Cursor} : S ⟨p, c :: cs⟩ b →
    M.Meets S T ⟨p, c :: cs⟩ b

variable {M}

theorem IsSimulation.abreast_look (h : M.IsSimulation S T) {a b m m' : Cursor}
    (hm : Cursor.Abreast S T a b m m') : Cursor.Abreast S T a b m.look m'.look := by
  obtain ⟨hS, u, u', hu, hu', hT⟩ := hm
  exact ⟨h.look hS, u, u', hu.look, hu'.look, hT⟩

/-- Two runs whose marks and whose cursors are abreast come to the same. -/
theorem IsSimulation.alike (h : M.IsSimulation S T) {a b : Cursor} {s : σ} {mark mark' : Cursor}
    {p : Place} {cs : List Char} {here : Cursor} (hmark : Cursor.Abreast S T a b mark mark')
    (hhere : Cursor.Abreast S T a b ⟨p, cs⟩ here) :
    Outcome.Alike S T a b (M.run s mark p cs) (M.run s mark' here.place here.rest) := by
  induction cs generalizing s mark mark' p here with
  | nil =>
    have hnil := h.nil hhere.related
    obtain ⟨q, rest⟩ := here
    obtain rfl : rest = [] := hnil
    rw [run, run]
    cases M.atEnd s with
    | accept r => exact ⟨rfl, fun _ => hhere, fun _ => ⟨mark, mark', hmark, rfl, rfl⟩⟩
    | back r => exact ⟨rfl, fun _ => hmark, fun _ => ⟨mark, mark', hmark, rfl, rfl⟩⟩
    | fail e => exact .of_error rfl rfl
  | cons c cs ih =>
    cases h.cons hhere.related with
    | complete hp hS hT =>
      rw [run, if_pos hp]
      exact ih hmark (hhere.stepLeft (Cursor.passes_complete hp cs) hS hT)
    | skip hp hc hskips hS hT =>
      have hskip : M.skips s && isInvisible c := by rw [hskips, hc]; rfl
      rw [run, if_neg hp, if_pos hskip]
      exact ih hmark (hhere.stepLeft (Cursor.passes_past hp cs) hS hT)
    | @both _ q _ d _ ds hp hq hinv hstep hS hT =>
      have hpast := hhere.step (Cursor.passes_past hp cs) (Cursor.passes_past hq ds) hS hT
      rw [run, run, if_neg hp, if_neg hq, hinv, hstep]
      split
      · exact ih hmark hpast
      · -- Both runs are shown the character, and do the same.
        cases M.step s c with
        | take t => exact ih hpast hpast
        | probe t => exact ih hmark hpast
        | finish r => exact ⟨rfl, fun _ => hpast, fun _ => ⟨_, _, hpast, rfl, rfl⟩⟩
        | stop r =>
          exact ⟨rfl, fun _ => h.abreast_look hmark, fun _ => ⟨mark, mark', hmark, rfl, rfl⟩⟩
        | fail e => exact .of_error rfl rfl
        | refuse e => exact .of_error rfl rfl
    | @ends _ q _ d _ ds hp hq hc hd hstep hends =>
      have hend := hends s
      rw [run, run, if_neg hp, if_neg hq, hc, hd, hstep, Bool.and_false]
      simp only [Bool.false_eq_true, if_false]
      cases hs : M.step s c with
      | stop r =>
        exact ⟨rfl, fun _ => h.abreast_look hmark, fun _ => ⟨mark, mark', hmark, rfl, rfl⟩⟩
      | fail e => exact .of_error rfl rfl
      | refuse e => exact .of_error rfl rfl
      | take | probe | finish => rw [hs] at hend; exact hend.elim

/-- A lexeme that ends with a character of its own is taken up to where the run ends. -/
theorem SelfClosing.taken_eq (hM : M.SelfClosing) {s : σ} {cur : Cursor} {r : ρ}
    (h : (M.runFrom s cur).verdict = .ok r) :
    (M.runFrom s cur).taken = (M.runFrom s cur).cursor.offset := by
  obtain ⟨s', mark, here, -, hend⟩ :=
    (invariant_leads M cur).halts (s := s) ⟨.refl cur, .refl cur⟩
  rw [runFrom] at h ⊢
  generalize M.run s cur cur.place cur.rest = o at h hend ⊢
  cases hend with
  | finish => rfl
  | stop _ he => exact absurd he hM.stop
  | accept he | back he =>
    obtain ⟨e, hfail⟩ := hM.atEnd (s := s')
    simp [hfail] at he
  | breakOff | fail | refuse => simp at h

/-- So its runs are alike if they end abreast of each other. -/
theorem SelfClosing.alike (hM : M.SelfClosing) {s : σ} {a b : Cursor}
    (hverdict : (M.runFrom s b).verdict = (M.runFrom s a).verdict)
    (hcursor : ∀ {r}, (M.runFrom s a).verdict = .ok r →
      Cursor.Abreast S T a b (M.runFrom s a).cursor (M.runFrom s b).cursor) :
    Outcome.Alike S T a b (M.runFrom s a) (M.runFrom s b) where
  verdict := hverdict
  cursor := hcursor
  taken hr := ⟨_, _, hcursor hr, (hM.taken_eq hr).symm, (hM.taken_eq (hverdict.trans hr)).symm⟩

/-- The relation between texts may be forgotten. -/
theorem Respects.anyhow (h : M.Respects S T) : M.Respects S fun _ _ => True := by
  intro s a b hab
  obtain ⟨hverdict, hcursor, htaken⟩ := h s a b hab
  have hforget {m m' : Cursor} (hm : Cursor.Abreast S T a b m m') :
      Cursor.Abreast S (fun _ _ => True) a b m m' := by
    obtain ⟨hS, u, u', hu, hu', -⟩ := hm
    exact ⟨hS, u, u', hu, hu', trivial⟩
  refine ⟨hverdict, fun hr => hforget (hcursor hr), fun hr => ?_⟩
  obtain ⟨m, m', hm, ho, ho'⟩ := htaken hr
  exact ⟨m, m', hforget hm, ho, ho'⟩

theorem IsSimulation.respects (h : M.IsSimulation S T) : M.Respects S T := by
  intro s a b hab
  have habreast := Cursor.Abreast.refl hab h.nil_nil
  exact h.alike habreast habreast

end Recognizer

end ScriptExcerpt
