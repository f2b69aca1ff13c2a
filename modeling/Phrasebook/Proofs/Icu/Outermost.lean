import Phrasebook.Proofs.Icu.Composition

/-!
# Hashes below several numbers

A number takes the place of all hashes in the clause that is picked, those of patterns inside the
clause included, and plurals are replaced before ordinals. So `render_outermost` gives each hash the
number of the outermost plural around it, else of the outermost ordinal, where `Message.value` has
the innermost of both.
-/

namespace Phrasebook.Icu

mutual

/-- Whether a part inside a clause if `nested`, in front of a brace if `guarded`, can be read back
from its text, and each select in it has a clause for the rest. -/
def Part.complete (nested guarded : Bool) : Part → Bool
  | .literal cs =>
    (cs.all fun c => c != '\x7b' && c != '\x7d') && (!nested || isPlainStart guarded cs)
  | .placeholder name => isName name
  | .token name format => isName name && format.all isFormatChar
  | .slot _ _ => false
  | .pattern kind name arms =>
    isName name &&
      (kind != .select || (arms.map Prod.fst).contains Category.other.keyword.toList) &&
      Arms.complete arms

def Message.complete (nested : Bool) : Message → Bool
  | [] => true
  | p :: ps => p.complete nested (Message.guarded ps) && Message.complete nested ps

def Arms.complete : Arms → Bool
  | [] => true
  | (selector, body) :: rest =>
    isSelector selector && Message.complete true body && Arms.complete rest

end

variable {env : Env} {parked : List (List Char)}

/-- The value of a pattern is of use to it. -/
def Part.IsServed (env : Env) : Part → Prop
  | .pattern kind name _ => env.serves kind name = true
  | _ => True

mutual

theorem Part.formed_of_complete {nested : Bool} {p : Part} {m : Message}
    (hc : p.complete nested m.guarded = true) (hs : ∀ q ∈ p.parts, q.IsServed env)
    (hm : m.Formed env true parked passOrder nested) :
    Message.Formed env true parked passOrder nested (p :: m) := by
  match p with
  | .literal cs =>
    simp only [Part.complete, Bool.and_eq_true, Bool.or_eq_true, Bool.not_eq_true',
      List.all_eq_true, bne_iff_ne] at hc
    refine .literal hc.1 (fun hn => unmarked_of_isPlainStart ?_) (fun h => Bool.noConfusion h) hm
    exact hc.2.resolve_left (by simp [hn])
  | .placeholder name => exact .placeholder hc hm
  | .token name format =>
    simp only [Part.complete, Bool.and_eq_true, List.all_eq_true] at hc
    exact .token hc.1 hc.2 (fun h => Bool.noConfusion h) hm
  | .slot _ _ => simp [Part.complete] at hc
  | .pattern kind name arms =>
    simp only [Part.complete, Bool.and_eq_true, Bool.or_eq_true, bne_iff_ne, ne_eq,
      List.contains_iff_mem] at hc
    have harms := Arms.formed_of_complete hc.2 fun q hq => hs q (by simp [Part.parts, hq])
    have hserved := hs (.pattern kind name arms) (by simp [Part.parts])
    have hkind : kind ∈ passOrder := by cases kind <;> decide
    exact .pattern hkind hc.1.1 hserved (List.forall_mem_map.2 fun a ha => (harms a ha).1)
      (fun _ hselect => hc.1.2.resolve_left fun hne => hne hselect) (fun a ha => (harms a ha).2) hm

theorem Message.formed_of_complete {nested : Bool} {m : Message} (hc : m.complete nested = true)
    (hs : ∀ q ∈ m.parts, q.IsServed env) : m.Formed env true parked passOrder nested := by
  match m with
  | [] => exact .nil
  | p :: ps =>
    simp only [Message.complete, Bool.and_eq_true] at hc
    have hrest : Message.Formed env true parked passOrder nested ps :=
      Message.formed_of_complete hc.2 fun q hq => hs q (by simp [Message.parts, hq])
    exact Part.formed_of_complete hc.1 (fun q hq => hs q (by simp [Message.parts, hq])) hrest

theorem Arms.formed_of_complete {arms : Arms} (hc : arms.complete = true)
    (hs : ∀ q ∈ arms.parts, q.IsServed env) :
    ∀ a ∈ arms, isSelector a.1 = true ∧ Message.Formed env true parked passOrder true a.2 := by
  match arms with
  | [] => simp
  | (selector, body) :: rest =>
    simp only [Arms.complete, Bool.and_eq_true] at hc
    have hbody : Message.Formed env true parked passOrder true body :=
      Message.formed_of_complete hc.1.2 fun q hq => hs q (by simp [Arms.parts, hq])
    have hrest := Arms.formed_of_complete hc.2 fun q hq => hs q (by simp [Arms.parts, hq])
    exact List.forall_mem_cons.2 ⟨⟨hc.1.1, hbody⟩, hrest⟩

end

/-- Filling the placeholders of a message without slots. -/
theorem fillVariables_print {nested : Bool} {m : Message} (h : m.Formed env true [] [] nested) :
    fillVariables env m.print = m.eval env ['#'] := by
  induction h with
  | nil => rfl
  | literal hb _ _ _ ih =>
    rw [Message.print, Message.eval, Part.print, Part.eval, fillHash_self,
      fillVariables_append hb.notMem, ih]
  | placeholder hn _ ih => rw [Message.print, Message.eval, fillVariables_placeholder hn, ih]
  | token hn hf _ _ ih =>
    rw [Message.print, Message.eval, fillVariables_token hn hf, ih]
    rfl
  | slot hp => simp at hp
  | pattern hk => exact absurd hk List.not_mem_nil

/-- Each hash of a message gets the number of the outermost plural around it, else of the outermost
ordinal, in every locale, with or without escaping, and whatever texts the values have. So each hash
gets the innermost number where these are the same. -/
theorem render_outermost (env : Env) (m : Message) (hm : m.complete false = true)
    (hs : m.served env = true) :
    render env (String.ofList m.print) = String.ofList (m.evalBy outermost env []) ∧
      ((m.hashKinds []).all innermostCounts = true →
        render env (String.ofList m.print) = m.value env) := by
  have hserved : ∀ q ∈ m.parts, q.IsServed env := by
    intro q hq
    have hq := List.all_eq_true.1 hs q hq
    cases q with
    | pattern _ _ _ => exact hq
    | _ => trivial
  have hformed : m.Formed env true [] passOrder false := Message.formed_of_complete hm hserved
  obtain ⟨parked, m', hsettle, hformed', hparked, heval⟩ := settle_formed hformed 31
  obtain rfl := hparked rfl
  have hrender : render env (String.ofList m.print) =
      String.ofList (m.evalBy outermost env []) := by
    unfold render renderChars
    rw [String.toList_ofList, show passLimit = 31 + 1 from rfl, hsettle]
    dsimp only
    rw [restore_nil, fillVariables_print hformed', heval]
  refine ⟨hrender, fun hcounts => ?_⟩
  rw [hrender, evalBy_outermost_eq hcounts]
  rfl

/-- The second row, a table and four guests. -/
def theatreEnv : Env where
  locale := "en"
  escape := true
  vars := [("row", .int 2), ("tables", .int 1), ("guests", .int 4)]

/-- A plural in an ordinal. -/
def rowMessage : Message :=
  [.pattern .ordinal "row".toList
    [("two".toList, [.literal "#nd row, ".toList, .pattern .plural "guests".toList
      [("one".toList, [.literal "# guest".toList]),
        ("other".toList, [.literal "# guests".toList])]]),
      ("other".toList, [.literal "#th row".toList])]]

/-- The hash of the plural is its own. -/
theorem render_rowMessage :
    rowMessage.complete false = true ∧ rowMessage.served theatreEnv = true ∧
      (rowMessage.hashKinds []).all innermostCounts = true ∧
      render theatreEnv (String.ofList rowMessage.print) = "2nd row, 4 guests" := by
  have hm : rowMessage.complete false = true := by decide +kernel
  have hs : rowMessage.served theatreEnv = true := by decide +kernel
  have hcounts : (rowMessage.hashKinds []).all innermostCounts = true := by decide +kernel
  obtain ⟨-, hvalue⟩ := render_outermost theatreEnv rowMessage hm hs
  exact ⟨hm, hs, hcounts, (hvalue hcounts).trans (by decide +kernel)⟩

/-- A plural in a plural. -/
def tableMessage : Message :=
  [.pattern .plural "tables".toList
    [("one".toList, [.literal "# table with ".toList, .pattern .plural "guests".toList
      [("one".toList, [.literal "# guest".toList]),
        ("other".toList, [.literal "# guests".toList])]]),
      ("other".toList, [.literal "# tables".toList])]]

/-- The plural inside gets the number of the one around it. -/
theorem render_tableMessage :
    tableMessage.complete false = true ∧ tableMessage.served theatreEnv = true ∧
      render theatreEnv (String.ofList tableMessage.print) = "1 table with 1 guests" ∧
      tableMessage.value theatreEnv = "1 table with 4 guests" :=
  ⟨by decide +kernel, by decide +kernel, by decide +kernel, by decide +kernel⟩

end Phrasebook.Icu
