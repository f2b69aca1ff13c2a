import Phrasebook.Proofs.Icu.Filling
import Phrasebook.Proofs.Icu.Message

/-!
# A sweep for one kind of pattern

`resolve` reads a text from left to right and goes on behind each pattern head that it finds. The
number of opening braces bounds its steps, so `resolve_eq` is its recursion without fuel; the lemmas
after it say what a sweep does at the first character of a text.
-/

namespace Phrasebook.Icu

variable {env : Env} {kind : Kind}

/-- The work with `cs` before its text. -/
def Work.behind (cs : List Char) (w : Work) : Work :=
  { w with text := cs ++ w.text }

@[simp] theorem behind_nil (w : Work) : w.behind [] = w := rfl

@[simp] theorem behind_behind (a b : List Char) (w : Work) :
    (w.behind b).behind a = w.behind (a ++ b) := by
  simp [Work.behind]

theorem drop_length_takeWhile (p : Char → Bool) (cs : List Char) :
    cs.drop (cs.takeWhile p).length = cs.dropWhile p := by
  have h := List.takeWhile_append_dropWhile (p := p) (l := cs)
  calc cs.drop (cs.takeWhile p).length
      = (cs.takeWhile p ++ cs.dropWhile p).drop (cs.takeWhile p).length := by rw [h]
    _ = cs.dropWhile p := List.drop_left' rfl

/-! ### Heads of patterns -/

theorem marker?_of_ne {c : Char} (h : c ≠ '\x7b') (cs : List Char) :
    marker? kind (c :: cs) = none := by
  unfold marker?
  split
  · rename_i he
    exact absurd (List.cons.inj he).1 h
  · rfl

theorem marker?_of_stop {cs : List Char} (h : ∀ after, cs.dropWhile Text.isWord ≠ ',' :: after) :
    marker? kind ('\x7b' :: cs) = none := by
  rw [marker?]
  dsimp only
  rw [drop_length_takeWhile]
  split
  · rename_i after _ hafter
    exact absurd hafter (h after)
  · rfl

theorem dropWhile_isWord_comma {name : List Char} (hw : name.all Text.isWord = true)
    (after : List Char) : (name ++ ',' :: after).dropWhile Text.isWord = ',' :: after := by
  rw [List.dropWhile_append_of_pos (by simpa using hw)]
  rw [List.dropWhile_cons_of_neg (by decide)]

theorem takeWhile_isWord_comma {name : List Char} (hw : name.all Text.isWord = true)
    (after : List Char) : (name ++ ',' :: after).takeWhile Text.isWord = name := by
  rw [List.takeWhile_append_of_pos (by simpa using hw)]
  rw [List.takeWhile_cons_of_neg (by decide), List.append_nil]

theorem marker?_comma {name : List Char} (hn : name ≠ []) (hw : name.all Text.isWord = true)
    (after : List Char) :
    marker? kind ('\x7b' :: (name ++ ',' :: after)) =
      if (kind.keyword ++ [',']).isPrefixOf (after.dropWhile Text.isBlank) then
        some (name, '\x7b' :: name ++ ',' :: after.takeWhile Text.isBlank ++ kind.keyword ++
          ',' :: ((after.dropWhile Text.isBlank).drop (kind.keyword.length + 1)).takeWhile
            Text.isBlank)
      else none := by
  obtain ⟨c, cs, rfl⟩ := List.exists_cons_of_ne_nil hn
  rw [marker?]
  dsimp only
  rw [drop_length_takeWhile, takeWhile_isWord_comma hw, dropWhile_isWord_comma hw]
  simp only [drop_length_takeWhile]

/-- What is found as a head is the start of the text: a brace, a name and the word of the kind, with
blanks after either comma. -/
theorem eq_append_of_marker? {cs name head : List Char}
    (h : marker? kind cs = some (name, head)) :
    ∃ blanks more rest, name ≠ [] ∧ name.all Text.isWord = true ∧ blanks.all Text.isBlank = true ∧
      more.all Text.isBlank = true ∧
      head = '\x7b' :: (name ++ ',' :: (blanks ++ (kind.keyword ++ ',' :: more))) ∧
      cs = head ++ rest := by
  unfold marker? at h
  split at h
  · rename_i text
    dsimp only at h
    split at h
    · rename_i after hname hafter
      split at h
      · rename_i hkey
        obtain ⟨rest, hrest⟩ := List.isPrefixOf_iff_prefix.1 hkey
        simp only [Option.some.injEq, Prod.mk.injEq] at h
        obtain ⟨rfl, rfl⟩ := h
        rw [drop_length_takeWhile] at hafter hrest
        have hmore : (after.dropWhile Text.isBlank).drop (kind.keyword.length + 1) = rest := by
          rw [← hrest]
          exact List.drop_left' (by simp)
        refine ⟨after.takeWhile Text.isBlank, rest.takeWhile Text.isBlank,
          rest.dropWhile Text.isBlank, ?_, List.all_takeWhile, List.all_takeWhile,
          List.all_takeWhile, ?_, ?_⟩
        · rw [hname]
          exact List.cons_ne_nil _ _
        · rw [drop_length_takeWhile, hmore]
          simp
        · rw [drop_length_takeWhile, hmore]
          calc '\x7b' :: text
              = '\x7b' :: (text.takeWhile Text.isWord ++ ',' :: after) := by
                rw [← hafter, List.takeWhile_append_dropWhile]
            _ = '\x7b' :: (text.takeWhile Text.isWord ++ ',' :: (after.takeWhile Text.isBlank ++
                  (kind.keyword ++ ',' :: (rest.takeWhile Text.isBlank ++
                    rest.dropWhile Text.isBlank)))) := by
                rw [List.takeWhile_append_dropWhile,
                  show kind.keyword ++ ',' :: rest = kind.keyword ++ [','] ++ rest by simp, hrest,
                  List.takeWhile_append_dropWhile]
            _ = _ := by simp
      · simp at h
    · simp at h
  · simp at h

theorem findMarker_cons_of_none {c : Char} {cs : List Char} (h : marker? kind (c :: cs) = none) :
    findMarker kind (c :: cs) =
      (findMarker kind cs).map fun (before, name, head, after) =>
        (c :: before, name, head, after) := by
  rw [findMarker, h]

theorem findMarker_of_some {cs name head : List Char} (h : marker? kind cs = some (name, head)) :
    findMarker kind cs = some ([], name, head, cs.drop head.length) := by
  cases cs with
  | nil => simp [marker?] at h
  | cons c cs => rw [findMarker, h]

theorem eq_append_of_findMarker {cs before name head after : List Char}
    (h : findMarker kind cs = some (before, name, head, after)) :
    cs = before ++ head ++ after ∧ marker? kind (head ++ after) = some (name, head) := by
  induction cs generalizing before with
  | nil => simp [findMarker] at h
  | cons c cs ih =>
    cases hm : marker? kind (c :: cs) with
    | some found =>
      obtain ⟨found, text⟩ := found
      rw [findMarker_of_some hm] at h
      obtain ⟨_, _, rest, -, -, -, -, -, heq⟩ := eq_append_of_marker? hm
      simp only [Option.some.injEq, Prod.mk.injEq] at h
      obtain ⟨rfl, rfl, rfl, rfl⟩ := h
      rw [heq, List.drop_left' rfl, List.nil_append]
      exact ⟨rfl, heq ▸ hm⟩
    | none =>
      rw [findMarker_cons_of_none hm] at h
      obtain ⟨⟨before', rest⟩, hf, he⟩ := Option.map_eq_some_iff.1 h
      simp only [Prod.mk.injEq] at he
      obtain ⟨rfl, rfl, rfl, rfl⟩ := he
      obtain ⟨rfl, hmarker⟩ := ih hf
      exact ⟨rfl, hmarker⟩

/-! ### Opening braces bound the steps -/

theorem clause?_split {cs rest : List Char} {c : Clause} (h : clause? cs = some (c, rest)) :
    ∃ front after, cs = front ++ '\x7b' :: after ∧ closing 0 after = some (c.body, rest) := by
  unfold clause? at h
  dsimp only at h
  split at h
  · rename_i after _ hafter
    obtain ⟨⟨body, left⟩, hclose, he⟩ := Option.map_eq_some_iff.1 h
    obtain ⟨rfl, rfl⟩ := Prod.mk.inj he
    obtain ⟨front, hfront⟩ : ('\x7b' :: after) <:+ cs := by
      rw [← hafter]
      exact ((List.dropWhile_suffix _).trans (List.dropWhile_suffix _)).trans
        (List.dropWhile_suffix _)
    exact ⟨front, after, hfront.symm, hclose⟩
  · simp at h

/-- The body of a clause stands between braces. -/
theorem split_of_mem_clauses {cs : List Char} {c : Clause} (h : c ∈ clauses cs) :
    ∃ front after rest, cs = front ++ '\x7b' :: after ∧ closing 0 after = some (c.body, rest) := by
  have within : ∀ (fuel : Nat) (text : List Char), c ∈ clausesWithin fuel text →
      ∃ front after rest, text = front ++ '\x7b' :: after ∧
        closing 0 after = some (c.body, rest) := by
    intro fuel
    induction fuel with
    | zero => intro text hc; simp [clausesWithin] at hc
    | succ fuel ih =>
      intro text hc
      rw [clausesWithin] at hc
      split at hc
      · rename_i first rest hfirst
        obtain ⟨front, after, rfl, hclose⟩ := clause?_split hfirst
        rcases List.mem_cons.1 hc with rfl | hc
        · exact ⟨front, after, rest, rfl, hclose⟩
        · obtain ⟨front', after', rest', rfl, hclose'⟩ := ih rest hc
          refine ⟨front ++ '\x7b' :: (first.body ++ '\x7d' :: front'), after', rest', ?_, hclose'⟩
          rw [closing_eq hclose]
          simp
      · simp at hc
  exact within _ _ h

theorem body_sublist_of_mem_clauses {cs : List Char} {c : Clause} (h : c ∈ clauses cs) :
    c.body.Sublist cs := by
  obtain ⟨front, after, rest, rfl, hclose⟩ := split_of_mem_clauses h
  rw [closing_eq hclose]
  have hbody : c.body.Sublist (c.body ++ '\x7d' :: rest) := List.sublist_append_left _ _
  exact hbody.trans ((List.sublist_cons_self _ _).trans (List.sublist_append_right _ _))

theorem mem_of_bodyWhere {p : List Char → Bool} {cs : List Clause} {body : List Char}
    (h : bodyWhere p cs = some body) : ∃ c ∈ cs, c.body = body := by
  obtain ⟨c, hc, rfl⟩ := Option.map_eq_some_iff.1 h
  exact ⟨c, List.mem_of_find?_eq_some hc, rfl⟩

theorem mem_of_or_bodyOf {a b : Option (List Char)} {cs : List Clause} {body : List Char}
    (ha : ∀ x, a = some x → ∃ c ∈ cs, c.body = x) (hb : ∀ x, b = some x → ∃ c ∈ cs, c.body = x)
    (h : a.or b = some body) : ∃ c ∈ cs, c.body = body := by
  rcases Option.or_eq_some_iff.1 h with h | ⟨-, h⟩
  · exact ha _ h
  · exact hb _ h

theorem mem_of_numberBody {category : Category} {count : Float} {cs : List Clause}
    {body : List Char} (h : numberBody category count cs = some body) :
    ∃ c ∈ cs, c.body = body :=
  mem_of_or_bodyOf (fun _ => mem_of_or_bodyOf (fun _ => mem_of_bodyWhere)
    (fun _ => mem_of_bodyWhere)) (fun _ => mem_of_bodyWhere) h

/-- A numeric pattern stands for the body of a clause with its number filled in, or for the number
alone. -/
theorem choose_numeric (hk : kind.isNumeric = true) (v : Option Value) (options : List Char) :
    choose env kind v options = (v.bind Value.number?).map fun count =>
      let number := plainChars (Binary64.ofFloat count)
      .body (((numberBody (kind.category env.locale count) count (clauses options)).map
        (fillHash number)).getD number) := by
  cases kind with
  | select => simp [Kind.isNumeric] at hk
  | plural =>
    unfold choose
    dsimp only
    congr 1
    funext count
    split <;> rename_i h <;> simp [h]
  | ordinal =>
    unfold choose
    dsimp only
    congr 1
    funext count
    split <;> rename_i h <;> simp [h]

/-- What is read again in place of a pattern is a number, or the body of a clause with its hashes
filled. -/
theorem body_of_choose {v : Option Value} {options body : List Char}
    (h : choose env kind v options = some (.body body)) :
    (∃ x, body = plainChars x) ∨
      ∃ c ∈ clauses options, ∃ hash, IsNumber hash ∧ body = fillHash hash c.body := by
  by_cases hk : kind.isNumeric = true
  · rw [choose_numeric hk] at h
    obtain ⟨count, -, he⟩ := Option.map_eq_some_iff.1 h
    obtain rfl := Replacement.body.inj he
    cases hb : numberBody (kind.category env.locale count) count (clauses options) with
    | none => exact .inl ⟨_, rfl⟩
    | some b =>
      obtain ⟨c, hc, rfl⟩ := mem_of_numberBody hb
      exact .inr ⟨c, hc, _, .inr ⟨_, rfl⟩, rfl⟩
  · obtain rfl : kind = .select := by
      cases kind <;> simp [Kind.isNumeric] at hk ⊢
    obtain ⟨text, -, he⟩ := Option.map_eq_some_iff.1 h
    split at he
    · rename_i b hb
      obtain rfl := Replacement.body.inj he
      obtain ⟨c, hc, rfl⟩ :=
        mem_of_or_bodyOf (fun _ => mem_of_bodyWhere) (fun _ => mem_of_bodyWhere) hb
      exact .inr ⟨c, hc, ['#'], .inl rfl, (fillHash_self _).symm⟩
    · simp at he

/-- Only a select parks a text, and it is the text of its value. -/
theorem text_of_choose {v : Option Value} {options text : List Char}
    (h : choose env kind v options = some (.text text)) :
    ∃ s, v.bind Value.display = some s ∧ text = showText env.escape s := by
  by_cases hk : kind.isNumeric = true
  · rw [choose_numeric hk] at h
    obtain ⟨count, -, he⟩ := Option.map_eq_some_iff.1 h
    simp at he
  · obtain rfl : kind = .select := by
      cases kind <;> simp [Kind.isNumeric] at hk ⊢
    obtain ⟨s, hs, he⟩ := Option.map_eq_some_iff.1 h
    split at he
    · simp at he
    · exact ⟨s, hs, (Replacement.text.inj he).symm⟩

theorem count_choose {v : Option Value} {options body : List Char}
    (h : choose env kind v options = some (.body body)) :
    body.count '\x7b' ≤ options.count '\x7b' := by
  rcases body_of_choose h with ⟨x, rfl⟩ | ⟨c, hc, hash, hhash, rfl⟩
  · rw [List.count_eq_zero.2 (notMem_plainChars (by decide) _)]
    exact Nat.zero_le _
  · rw [count_fillHash (by decide) (hhash.notMem (by decide) (by decide))]
    exact (body_sublist_of_mem_clauses hc).count_le _

theorem replacement?_of_closing {name cs options tail : List Char}
    (h : closing 0 cs = some (options, tail)) :
    replacement? env kind name cs = (choose env kind (env.value? name) options).map (·, tail) := by
  rw [replacement?, h]
  rfl

/-- A replacement is chosen among the options up to the closing brace. -/
theorem choose_of_replacement? {name cs tail : List Char} {r : Replacement}
    (h : replacement? env kind name cs = some (r, tail)) :
    ∃ options, closing 0 cs = some (options, tail) ∧
      choose env kind (env.value? name) options = some r := by
  obtain ⟨⟨options, rest⟩, hclose, hchoose⟩ := Option.bind_eq_some_iff.1 h
  obtain ⟨_, hr, he⟩ := Option.map_eq_some_iff.1 hchoose
  obtain ⟨rfl, rfl⟩ := Prod.mk.inj he
  exact ⟨options, hclose, hr⟩

/-- A replacement and the text behind it have fewer opening braces than the pattern had. -/
theorem count_replacement? {name cs tail body : List Char}
    (h : replacement? env kind name cs = some (.body body, tail)) :
    (body ++ tail).count '\x7b' ≤ cs.count '\x7b' := by
  obtain ⟨options, hclose, hchoose⟩ := choose_of_replacement? h
  have hbody := count_choose hchoose
  rw [closing_eq hclose, List.count_append, List.count_append, List.count_cons]
  omega

theorem count_replacement?_text {name cs tail text : List Char}
    (h : replacement? env kind name cs = some (.text text, tail)) :
    tail.count '\x7b' ≤ cs.count '\x7b' := by
  obtain ⟨options, hclose, -⟩ := choose_of_replacement? h
  rw [closing_eq hclose, List.count_append, List.count_cons]
  omega

theorem count_around {cs before name head after : List Char}
    (h : findMarker kind cs = some (before, name, head, after)) :
    before.count '\x7b' + after.count '\x7b' < cs.count '\x7b' := by
  obtain ⟨heq, hm⟩ := eq_append_of_findMarker h
  obtain ⟨_, _, _, -, -, -, -, hhead, -⟩ := eq_append_of_marker? hm
  rw [heq, hhead, List.count_append, List.count_append, List.count_cons_self]
  omega

theorem count_after {cs before name head after : List Char}
    (h : findMarker kind cs = some (before, name, head, after)) :
    after.count '\x7b' < cs.count '\x7b' :=
  Nat.lt_of_le_of_lt (Nat.le_add_left _ _) (count_around h)

theorem resolveWithin_of_none {w : Work} (h : findMarker kind w.text = none) (n : Nat) :
    resolveWithin env kind n w = w := by
  cases n with
  | zero => rfl
  | succ n => rw [resolveWithin, h]

/-- As much fuel as opening braces is enough. -/
theorem resolveWithin_congr {n k : Nat} {w : Work} (h : w.text.count '\x7b' ≤ n)
    (h' : w.text.count '\x7b' ≤ k) : resolveWithin env kind n w = resolveWithin env kind k w := by
  induction n generalizing k w with
  | zero =>
    have hnone : findMarker kind w.text = none := by
      cases hm : findMarker kind w.text with
      | none => rfl
      | some found => exact absurd (count_after hm) (by omega)
    rw [resolveWithin_of_none hnone, resolveWithin_of_none hnone]
  | succ n ih =>
    cases hm : findMarker kind w.text with
    | none => rw [resolveWithin_of_none hm, resolveWithin_of_none hm]
    | some found =>
      obtain ⟨before, name, head, after⟩ := found
      have hlt := count_after hm
      obtain ⟨k, rfl⟩ : ∃ m, k = m + 1 := ⟨k - 1, by omega⟩
      rw [resolveWithin, resolveWithin, hm]
      dsimp only
      split
      · rename_i body tail hr
        have hle := count_replacement? hr
        rw [ih (k := k) (by dsimp only; omega) (by dsimp only; omega)]
      · rename_i text tail hr
        have hle := count_replacement?_text hr
        rw [ih (k := k) (by dsimp only; omega) (by dsimp only; omega)]
      · rw [ih (k := k) (by dsimp only; omega) (by dsimp only; omega)]

theorem resolve_eq (w : Work) :
    resolve env kind w =
      match findMarker kind w.text with
      | none => w
      | some (before, name, head, after) =>
        match replacement? env kind name after with
        | some (.body body, tail) =>
          (resolve env kind ⟨body ++ tail, w.parked⟩).behind before
        | some (.text text, tail) =>
          (resolve env kind ⟨tail, w.parked ++ [text]⟩).behind (before ++ slot w.parked.length)
        | none => (resolve env kind ⟨after, w.parked⟩).behind (before ++ head) := by
  split
  · rename_i hm
    exact resolveWithin_of_none hm _
  · rename_i before name head after hm
    have hlt := count_after hm
    unfold resolve
    obtain ⟨n, hn⟩ : ∃ n, w.text.count '\x7b' = n + 1 := ⟨w.text.count '\x7b' - 1, by omega⟩
    rw [hn, resolveWithin, hm]
    dsimp only
    cases hr : replacement? env kind name after with
    | none =>
      rw [resolveWithin_congr (k := after.count '\x7b') (by dsimp only; omega) (Nat.le_refl _)]
      simp [Work.behind]
    | some found =>
      obtain ⟨body | text, tail⟩ := found
      · have hle := count_replacement? hr
        dsimp only
        rw [resolveWithin_congr (k := (body ++ tail).count '\x7b') (by dsimp only; omega)
          (Nat.le_refl _)]
        rfl
      · have hle := count_replacement?_text hr
        dsimp only
        rw [resolveWithin_congr (k := tail.count '\x7b') (by dsimp only; omega) (Nat.le_refl _)]
        simp [Work.behind]

@[simp] theorem resolve_nil (parked : List (List Char)) :
    resolve env kind ⟨[], parked⟩ = ⟨[], parked⟩ := rfl

theorem resolve_cons {c : Char} {cs : List Char} (h : marker? kind (c :: cs) = none)
    (parked : List (List Char)) :
    resolve env kind ⟨c :: cs, parked⟩ = (resolve env kind ⟨cs, parked⟩).behind [c] := by
  rw [resolve_eq, resolve_eq ⟨cs, parked⟩]
  dsimp only
  rw [findMarker_cons_of_none h]
  cases hm : findMarker kind cs with
  | none => simp [Work.behind]
  | some found =>
    obtain ⟨before, name, head, after⟩ := found
    dsimp only [Option.map_some]
    split <;> simp

/-- A pattern is replaced by the body of a clause, which is read again. -/
theorem resolve_body {cs name head body tail : List Char}
    (hm : marker? kind cs = some (name, head))
    (hr : replacement? env kind name (cs.drop head.length) = some (.body body, tail))
    (parked : List (List Char)) :
    resolve env kind ⟨cs, parked⟩ = resolve env kind ⟨body ++ tail, parked⟩ := by
  rw [resolve_eq]
  dsimp only
  rw [findMarker_of_some hm]
  dsimp only
  rw [hr]
  simp

/-- A pattern that stands for a text is replaced by a slot, which is not read again. -/
theorem resolve_text {cs name head text tail : List Char}
    (hm : marker? kind cs = some (name, head))
    (hr : replacement? env kind name (cs.drop head.length) = some (.text text, tail))
    (parked : List (List Char)) :
    resolve env kind ⟨cs, parked⟩ =
      (resolve env kind ⟨tail, parked ++ [text]⟩).behind (slot parked.length) := by
  rw [resolve_eq]
  dsimp only
  rw [findMarker_of_some hm]
  dsimp only
  rw [hr]
  simp

/-- A pattern that cannot be replaced is passed over up to the end of its head. -/
theorem resolve_skip {cs name head : List Char} (hm : marker? kind cs = some (name, head))
    (hr : replacement? env kind name (cs.drop head.length) = none) (parked : List (List Char)) :
    resolve env kind ⟨cs, parked⟩ =
      (resolve env kind ⟨cs.drop head.length, parked⟩).behind head := by
  rw [resolve_eq]
  dsimp only
  rw [findMarker_of_some hm]
  dsimp only
  rw [hr]
  simp

/-! ### What a sweep makes of the start of a text -/

/-- A sweep turns the text `cs` into `ds`, whatever follows, and the parked texts `ps` into `qs`. -/
def Rewrites (env : Env) (kind : Kind) (cs : List Char) (ps : List (List Char)) (ds : List Char)
    (qs : List (List Char)) : Prop :=
  ∀ rest, resolve env kind ⟨cs ++ rest, ps⟩ = (resolve env kind ⟨rest, qs⟩).behind ds

namespace Rewrites

variable {a b c d : List Char} {ps qs rs : List (List Char)}

theorem resolve_eq (h : Rewrites env kind a ps b qs) : resolve env kind ⟨a, ps⟩ = ⟨b, qs⟩ := by
  have hall := h []
  rw [List.append_nil, resolve_nil] at hall
  rw [hall]
  simp [Work.behind]

theorem append (h : Rewrites env kind a ps b qs) (h' : Rewrites env kind c qs d rs) :
    Rewrites env kind (a ++ c) ps (b ++ d) rs := by
  intro rest
  rw [List.append_assoc, h, h', behind_behind]

theorem cons {x : Char} (hx : ∀ rest, marker? kind (x :: (a ++ rest)) = none)
    (h : Rewrites env kind a ps b qs) : Rewrites env kind (x :: a) ps (x :: b) qs := by
  intro rest
  rw [List.cons_append, resolve_cons (hx rest), h, behind_behind]
  rfl

theorem refl (h : '\x7b' ∉ a) : Rewrites env kind a ps a ps := by
  induction a with
  | nil => intro rest; simp
  | cons x a ih =>
    simp only [List.mem_cons, not_or] at h
    exact cons (fun rest => marker?_of_ne (Ne.symm h.1) _) (ih h.2)

end Rewrites

end Phrasebook.Icu
