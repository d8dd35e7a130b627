import Mathlib
import ThreeAddress.Session
import ThreeAddress.Proofs.OperationNames

/-!
# Allocators that are shared

In a session an allocator serves whoever knows it: temporaries are taken from it one by one, and by
parsers that share it, on any scanner and within any limits. `take_effect` says what one step does
to the counts of all allocators. Whatever the steps, and whichever of them fail, no name is handed
out twice by the same allocator.
-/

namespace ThreeAddress.Session

section Keeps

variable {α β γ : Type} {view : Session → γ}

lemma exists_of_bind_eq_ok {w : Work α} {f : α → Work β} {s s' : Session} {b : β}
    (h : (w >>= f).run s = .ok b s') :
    ∃ a s₁, w.run s = .ok a s₁ ∧ (f a).run s₁ = .ok b s' := by
  rw [EStateM.run_bind] at h
  cases hrun : w.run s with
  | error name s₁ =>
    rw [hrun] at h
    cases h
  | ok a s₁ =>
    rw [hrun] at h
    exact ⟨a, s₁, rfl, h⟩

/-- Work that succeeds leaves the view of the session as it was. -/
def Keeps (view : Session → γ) (w : Work α) : Prop :=
  ∀ s a s', w.run s = .ok a s' → view s' = view s

lemma Keeps.pure (a : α) : Keeps view (Pure.pure a : Work α) := by
  intro s b s' h
  cases h
  rfl

lemma Keeps.bind {w : Work α} {f : α → Work β} (hw : Keeps view w) (hf : ∀ a, Keeps view (f a)) :
    Keeps view (w >>= f) := by
  intro s b s' h
  obtain ⟨a, s₁, hfirst, hrest⟩ := exists_of_bind_eq_ok h
  rw [hf a s₁ b s' hrest, hw s a s₁ hfirst]

lemma keeps_get : Keeps view (get : Work Session) := by
  intro s a s' h
  cases h
  rfl

lemma keeps_modifyGet {f : Session → α × Session} (hf : ∀ s, view (f s).2 = view s) :
    Keeps view (modifyGet f : Work α) := by
  intro s a s' h
  cases h
  exact hf s

lemma keeps_modify {f : Session → Session} (hf : ∀ s, view (f s) = view s) :
    Keeps view (modify f : Work PUnit) :=
  keeps_modifyGet hf

end Keeps

lemma find_eq_ok {α : Type} {name : String} {look : Session → Object → Option α} {s s' : Session}
    {a : α} (h : (find name look).run s = .ok a s') :
    s' = s ∧ ∃ object, s.names.lookup name = some object ∧ look s object = some a := by
  simp only [find, EStateM.run_bind, EStateM.run_get] at h
  cases hlook : (s.names.lookup name).bind (look s) with
  | none =>
    rw [hlook] at h
    cases h
  | some a' =>
    rw [hlook] at h
    cases h
    exact ⟨rfl, Option.bind_eq_some_iff.mp hlook⟩

lemma keeps_find {α γ : Type} {view : Session → γ} {name : String}
    {look : Session → Object → Option α} : Keeps view (find name look) := by
  intro s a s' h
  rw [(find_eq_ok h).1]

lemma keeps_findCategory {γ : Type} {view : Session → γ} {reporter? : Option String} :
    Keeps view (findCategory reporter?) := by
  cases reporter? with
  | none => exact .pure _
  | some name => exact keeps_find

/-- How many temporaries were taken from an allocator; from one that is still to come, none. -/
def count (s : Session) (number : Nat) : Nat :=
  s.allocators[number]?.getD 0

lemma keeps_count_addAllocator : Keeps count addAllocator := by
  apply keeps_modifyGet
  intro s
  funext number
  dsimp only [count]
  rw [Array.getElem?_push]
  by_cases hnumber : number = s.allocators.size
  · rw [if_pos hnumber, hnumber, Array.getElem?_size]
    rfl
  · rw [if_neg hnumber]

/-- The allocator that a step takes temporaries from, as the names stand. -/
def allocatorOf? (s : Session) : Step → Option Nat
  | .takeTemporary name =>
    match s.names.lookup name with
    | some (.allocator number) => some number
    | _ => none
  | .parse name _ | .expression name _ =>
    match s.names.lookup name with
    | some (.parser reader) => some reader.allocator
    | _ => none
  | _ => none

def Step.takesTemporaries : Step → Bool
  | .takeTemporary _ | .parse .. | .expression .. => true
  | _ => false

lemma keeps_count_bindName {name : String} {object : Object} :
    Keeps count (bindName name object) :=
  keeps_modify fun _ => rfl

lemma keeps_count_perform {α : Type} {pipeline : Pipeline α} :
    Keeps count (perform pipeline) := by
  apply keeps_modifyGet
  intro s
  cases pipeline.run s.output <;> rfl

theorem keeps_count_work {step : Step} (h : step.takesTemporaries = false) :
    Keeps count (work step) := by
  have hrecord : ∀ event, Keeps count (record event) := fun event => keeps_modify fun _ => rfl
  cases step with
  | takeTemporary | parse | expression => cases h
  | newAllocator name =>
    exact .bind keeps_count_addAllocator fun _ =>
      .bind keeps_count_bindName fun _ => .pure _
  | newReporter name category =>
    exact .bind keeps_count_bindName fun _ => .pure _
  | report name issue =>
    exact .bind keeps_find fun _ => .bind (hrecord _) fun _ => .pure _
  | newScanner name source reporter? =>
    refine .bind keeps_findCategory fun category => ?_
    cases Scanner.ofSource source category with
    | ok scanner =>
      exact .bind (keeps_modifyGet fun _ => rfl) fun _ =>
        .bind keeps_count_bindName fun _ => .pure _
    | error d =>
      exact .bind (hrecord _) fun _ => .bind (keeps_modify fun _ => rfl) fun _ => .pure _
  | tokenize source reporter? =>
    refine .bind keeps_findCategory fun category => ?_
    refine .bind keeps_count_perform fun outcome => ?_
    cases outcome <;> exact .pure _
  | advance name =>
    refine .bind keeps_find fun ⟨place, scanner⟩ => ?_
    dsimp only
    cases scanner.advance with
    | ok token scanner => exact .bind (keeps_modify fun _ => rfl) fun _ => .pure _
    | error d scanner =>
      exact .bind (keeps_modify fun _ => rfl) fun _ => .bind (hrecord _) fun _ => .pure _
  | newParser name scanner allocator? reporter? limits =>
    refine .bind keeps_find fun ⟨place, found⟩ => ?_
    refine .bind ?_ fun ⟨allocator, temporaries⟩ => ?_
    · cases allocator? with
      | some allocator => exact keeps_find
      | none => exact .bind keeps_count_addAllocator fun _ => .pure _
    · exact .bind keeps_findCategory fun _ =>
        .bind keeps_count_bindName fun _ => .pure _
  | newTree name t => exact .bind keeps_count_bindName fun _ => .pure _
  | newSink name => exact .bind keeps_count_bindName fun _ => .pure _
  | evaluateInto tree sink =>
    refine .bind keeps_find fun t => .bind keeps_find fun code => ?_
    refine .bind keeps_get fun s => ?_
    cases (Pipeline.evaluateInto false t).run (code, s.output) with
    | ok value rest | error fault rest =>
      exact .bind (keeps_modify fun _ => rfl) fun _ =>
        .bind keeps_count_bindName fun _ => .pure _
  | evaluate tree =>
    refine .bind keeps_find fun t => .bind keeps_count_perform fun outcome => ?_
    cases outcome <;> exact .pure _
  | list sink | listAnnotated sink | countOperators sink =>
    exact .bind keeps_find fun _ => .pure _

lemma count_setIfInBounds {s : Session} {number k : Nat} (h : s.allocators[number]? = some k)
    (n : Nat) :
    ({ s with allocators := s.allocators.setIfInBounds number n } : Session).count =
      Function.update s.count number n := by
  funext other
  dsimp only [count]
  rw [Array.getElem?_setIfInBounds]
  by_cases hother : number = other
  · obtain ⟨hlt, -⟩ := Array.getElem?_eq_some_iff.mp h
    rw [if_pos hother, if_pos hlt, hother, Function.update_self]
    rfl
  · rw [if_neg hother, Function.update_of_ne (Ne.symm hother)]
    rfl

/-- The names that an answer hands out. -/
def Answer.names : Answer → List String
  | .temporary t _ => [t.name]
  | .parsed (.ok e) _ => e.toTree.operationNames
  | _ => []

/-- What a step can do to the counts of the allocators. -/
inductive Effect (s : Session) (step : Step) : Answer → Session → Prop where
  | idle {answer : Answer} {s' : Session}
      (hidle : s.allocatorOf? step = none ∨ ∃ name, answer = .unknownName name)
      (hcount : s'.count = s.count) : Effect s step answer s'
  | temporary {number : Nat} {s' : Session} (hallocator : s.allocatorOf? step = some number)
      (hcount : s'.count = Function.update s.count number (s.count number + 1)) :
      Effect s step (.temporary ⟨s.count number⟩ (s.count number + 1)) s'
  | parsed {number : Nat} {e : Expr} {p : Parser} {s' : Session}
      (hallocator : s.allocatorOf? step = some number) (hnumbered : e.Numbered (s.count number))
      (htemporaries : p.temporaries = s.count number + e.operationCount)
      (hcount : s'.count = Function.update s.count number p.temporaries) :
      Effect s step (.parsed (.ok e) p) s'
  | failed {number : Nat} {d : Diagnostic} {p : Parser} {s' : Session}
      (hallocator : s.allocatorOf? step = some number) (hle : s.count number ≤ p.temporaries)
      (hcount : s'.count = Function.update s.count number p.temporaries) :
      Effect s step (.parsed (.error d) p) s'

lemma effect_takeTemporary {name : String} {s s' : Session} {answer : Answer}
    (h : (takeTemporary name).run s = .ok answer s') :
    Effect s (.takeTemporary name) answer s' := by
  obtain ⟨⟨number, k⟩, s₁, hfind, hrest⟩ := exists_of_bind_eq_ok h
  obtain ⟨rfl, object, hobject, hlook⟩ := find_eq_ok hfind
  cases object with
  | allocator number' =>
    obtain ⟨k', hk, hpair⟩ := Option.map_eq_some_iff.mp hlook
    obtain ⟨rfl, rfl⟩ := Prod.mk.inj hpair
    have hallocator : s₁.allocatorOf? (.takeTemporary name) = some number' := by
      simp only [allocatorOf?, hobject]
    have hcount : s₁.count number' = k' := by rw [count, hk, Option.getD_some]
    cases hrest
    have heffect := Effect.temporary hallocator (count_setIfInBounds hk (s₁.count number' + 1))
    rwa [hcount] at heffect
  | reporter | scanner | parser | tree | sink => cases hlook

lemma count_setParser {name : String} {reader : Reader} {p : Parser} {s s' : Session} {k : Nat}
    (hk : s.allocators[reader.allocator]? = some k)
    (h : (setParser name reader p).run s = .ok () s') :
    s'.count = Function.update s.count reader.allocator p.temporaries := by
  cases h
  exact count_setIfInBounds hk p.temporaries

lemma effect_read {reading : Parser → EStateM.Result Diagnostic Parser Expr}
    {onSuccess : Expr → Parser → Work Unit} {name : String} {store? : Option String} {step : Step}
    {s s' : Session} {answer : Answer}
    (hreading : ∀ p : Parser, Parser.TakesInOrder p.temporaries (reading p))
    (hsuccess : ∀ e p, Keeps count (onSuccess e p))
    (hstep : ∀ reader, s.names.lookup name = some (.parser reader) →
      s.allocatorOf? step = some reader.allocator)
    (h : (read reading onSuccess name store?).run s = .ok answer s') : Effect s step answer s' := by
  obtain ⟨⟨reader, p⟩, s₁, hfind, hrest⟩ := exists_of_bind_eq_ok h
  obtain ⟨rfl, object, hobject, hlook⟩ := find_eq_ok hfind
  cases object with
  | parser found =>
    obtain ⟨scanner, hscanner, hlook⟩ := Option.bind_eq_some_iff.mp hlook
    obtain ⟨k, hk, hpair⟩ := Option.bind_eq_some_iff.mp hlook
    cases hpair
    have hallocator := hstep reader hobject
    have hcount : s₁.count reader.allocator = k := by rw [count, hk, Option.getD_some]
    have htakes := hreading { reader with scanner, temporaries := k }
    dsimp only at hrest htakes
    cases hresult : reading { reader with scanner, temporaries := k } with
    | ok e p =>
      rw [hresult] at htakes hrest
      obtain ⟨hnumbered, htemporaries⟩ := htakes
      obtain ⟨_, s₂, hset, hrest⟩ := exists_of_bind_eq_ok hrest
      have hkeeps : Keeps count (onSuccess e p >>= fun _ =>
          store?.forM (fun target => bindName target (.tree e.toTree)) >>= fun _ =>
          (pure (.parsed (.ok e) p) : Work Answer)) := by
        refine .bind (hsuccess e p) fun _ => .bind ?_ fun _ => .pure _
        cases store? with
        | none => exact .pure _
        | some target => exact keeps_modify fun _ => rfl
      have hlast := hkeeps s₂ answer s' hrest
      rw [count_setParser hk hset] at hlast
      obtain ⟨_, s₃, -, hrest⟩ := exists_of_bind_eq_ok hrest
      obtain ⟨_, s₄, -, hrest⟩ := exists_of_bind_eq_ok hrest
      cases hrest
      exact .parsed hallocator (hcount ▸ hnumbered) (hcount ▸ htemporaries) hlast
    | error d p =>
      rw [hresult] at htakes hrest
      obtain ⟨_, s₂, hset, hrest⟩ := exists_of_bind_eq_ok hrest
      have hlast := count_setParser hk hset
      cases hrest
      exact .failed hallocator (hcount ▸ htakes) hlast
  | allocator | reporter | scanner | tree | sink => cases hlook

theorem take_effect (step : Step) (s : Session) :
    Effect s step (take step s).1 (take step s).2 := by
  unfold take
  cases hrun : (work step).run s with
  | error name s' => exact .idle (.inr ⟨name, rfl⟩) rfl
  | ok answer s' =>
    dsimp only
    cases hstep : step.takesTemporaries with
    | false =>
      refine .idle (.inl ?_) (keeps_count_work hstep s answer s' hrun)
      cases step with
      | takeTemporary | parse | expression => cases hstep
      | _ => rfl
    | true =>
      cases step with
      | takeTemporary name => exact effect_takeTemporary hrun
      | parse name store? =>
        refine effect_read Parser.parse_takesInOrder ?_ ?_ hrun
        · exact fun _ _ => keeps_modify fun _ => rfl
        intro reader hreader
        simp only [allocatorOf?, hreader]
      | expression name store? =>
        refine effect_read Parser.expression_takesInOrder (fun _ _ => .pure _) ?_ hrun
        intro reader hreader
        simp only [allocatorOf?, hreader]
      | _ => cases hstep

theorem obey_effect (command : Command) (s : Session) :
    Effect s command.step (obey command s).1 (obey command s).2 := by
  unfold obey
  split
  · rename_i name _
    exact .idle (.inr ⟨name, rfl⟩) rfl
  · exact take_effect command.step s

/-- A step leaves alone the allocators that it takes no temporaries from. -/
lemma Effect.count_of_ne {s s' : Session} {step : Step} {answer : Answer} {number : Nat}
    (h : Effect s step answer s') (hne : s.allocatorOf? step ≠ some number) :
    s'.count number = s.count number := by
  cases h with
  | idle hidle hcount => rw [hcount]
  | temporary hallocator hcount | parsed hallocator _ _ hcount | failed hallocator _ hcount =>
    rw [hcount, Function.update_of_ne]
    rintro rfl
    exact hne hallocator

/-- How a call counts on from what it finds: its names are those of the next temporaries, in the
order of the tree, and a failure does not lower the count. The answer reports the new count. A call
that does not know some name leaves the count alone, and there is no other answer. -/
def CountsOn (number : Nat) (s : Session) : Answer → Session → Prop
  | .temporary t n, s' => t = ⟨s.count number⟩ ∧ n = s.count number + 1 ∧ s'.count number = n
  | .parsed (.ok e) p, s' =>
    e.toTree.operationNames = temporaryNames (s.count number) e.operationCount ∧
      p.temporaries = s.count number + e.operationCount ∧ s'.count number = p.temporaries
  | .parsed (.error _) p, s' => s.count number ≤ p.temporaries ∧ s'.count number = p.temporaries
  | .unknownName _, s' => s'.count number = s.count number
  | _, _ => False

lemma Effect.countsOn {s s' : Session} {step : Step} {answer : Answer} {number : Nat}
    (h : Effect s step answer s') (hnumber : s.allocatorOf? step = some number) :
    CountsOn number s answer s' := by
  cases h with
  | idle hidle hcount =>
    obtain hnone | ⟨name, rfl⟩ := hidle
    · rw [hnumber] at hnone
      cases hnone
    · exact congrFun hcount number
  | temporary hallocator hcount =>
    obtain rfl := Option.some.inj (hnumber.symm.trans hallocator)
    exact ⟨rfl, rfl, by rw [hcount, Function.update_self]⟩
  | parsed hallocator hnumbered htemporaries hcount =>
    obtain rfl := Option.some.inj (hnumber.symm.trans hallocator)
    exact ⟨hnumbered.operationNames, htemporaries, by rw [hcount, Function.update_self]⟩
  | failed hallocator hle hcount =>
    obtain rfl := Option.some.inj (hnumber.symm.trans hallocator)
    exact ⟨hle, by rw [hcount, Function.update_self]⟩

lemma CountsOn.exists_names {number : Nat} {s s' : Session} {answer : Answer}
    (h : CountsOn number s answer s') :
    ∃ taken, answer.names = temporaryNames (s.count number) taken ∧
      s.count number + taken ≤ s'.count number := by
  unfold CountsOn at h
  split at h
  · obtain ⟨rfl, rfl, hcount⟩ := h
    exact ⟨1, rfl, by omega⟩
  · obtain ⟨hnames, htemporaries, hcount⟩ := h
    exact ⟨_, hnames, by omega⟩
  · obtain ⟨hle, hcount⟩ := h
    exact ⟨0, rfl, by omega⟩
  · exact ⟨0, rfl, by omega⟩
  · exact h.elim

/-! ### Whole sessions -/

/-- The names that an allocator hands out at a command. -/
def namesAt (number : Nat) (command : Command) (s : Session) : List String :=
  if s.allocatorOf? command.step = some number then (obey command s).1.names else []

/-- The names that an allocator hands out in the course of a session. -/
def namesFrom (number : Nat) : List Command → Session → List String
  | [], _ => []
  | command :: commands, s =>
    namesAt number command s ++ namesFrom number commands (obey command s).2

lemma exists_namesAt_eq (number : Nat) (command : Command) (s : Session) :
    ∃ taken, namesAt number command s = temporaryNames (s.count number) taken ∧
      s.count number + taken ≤ (obey command s).2.count number := by
  have heffect := obey_effect command s
  unfold namesAt
  by_cases hnumber : s.allocatorOf? command.step = some number
  · rw [if_pos hnumber]
    exact (heffect.countsOn hnumber).exists_names
  · have hcount := heffect.count_of_ne hnumber
    rw [if_neg hnumber]
    exact ⟨0, rfl, by omega⟩

/-- The names of a session are those of increasing indices, from the count at its start up to the
count at its end. -/
theorem exists_namesFrom_eq (number : Nat) (commands : List Command) (s : Session) :
    ∃ indices : List Nat,
      namesFrom number commands s = indices.map (fun index => (Temporary.mk index).name) ∧
      indices.Pairwise (· < ·) ∧
      s.count number ≤ (run commands s).2.count number ∧
      ∀ index ∈ indices, s.count number ≤ index ∧ index < (run commands s).2.count number := by
  induction commands generalizing s with
  | nil => exact ⟨[], rfl, .nil, Nat.le_refl _, by simp⟩
  | cons command commands ih =>
    obtain ⟨taken, hnames, hle⟩ := exists_namesAt_eq number command s
    obtain ⟨indices, hrest, hpairwise, hend, hbounds⟩ := ih (obey command s).2
    have hrun : (run (command :: commands) s).2 = (run commands (obey command s).2).2 := rfl
    rw [hrun]
    refine ⟨List.range' (s.count number) taken ++ indices, ?_, ?_, by omega, ?_⟩
    · rw [namesFrom, hnames, hrest, List.map_append, temporaryNames]
    · rw [List.pairwise_append]
      refine ⟨List.pairwise_lt_range', hpairwise, ?_⟩
      -- What is handed out now lies below the count that the later commands start from.
      intro index hindex later hlater
      have hlt := (List.mem_range'_1.mp hindex).2
      have hge := (hbounds later hlater).1
      omega
    · intro index hindex
      obtain hnow | hlater := List.mem_append.mp hindex
      · have hmem := List.mem_range'_1.mp hnow
        omega
      · have hmem := hbounds index hlater
        omega

/-- No allocator hands out a name twice, however many callers share it and whichever of their calls
fail. Every call counts on from what it finds, and whatever else happens leaves the count alone. -/
theorem allocator_names_are_distinct (number : Nat) :
    (∀ commands s, (namesFrom number commands s).Nodup) ∧
    ∀ (command : Command) (s : Session),
      (s.allocatorOf? command.step = some number →
        CountsOn number s (obey command s).1 (obey command s).2) ∧
      (s.allocatorOf? command.step ≠ some number →
        (obey command s).2.count number = s.count number) := by
  constructor
  · intro commands s
    obtain ⟨indices, hnames, hpairwise, -⟩ := exists_namesFrom_eq number commands s
    rw [hnames]
    refine List.Pairwise.map _ ?_ hpairwise
    intro index later hlt hname
    have hindex := congrArg Temporary.index (Temporary.name_injective hname)
    exact Nat.ne_of_lt hlt hindex
  · intro command s
    have heffect := obey_effect command s
    exact ⟨heffect.countsOn, heffect.count_of_ne⟩

/-- Two parsers and a direct caller share an allocator; the first parser fails behind its sum. -/
theorem allocator_names_are_distinct_of_failed_parse :
    ∃ commands, namesFrom 0 commands {} = ["t0", "t2", "t3", "t4"] ∧
      (namesFrom 0 commands {}).Nodup :=
  ⟨[⟨[], .newAllocator "a"⟩, ⟨["a"], .takeTemporary "a"⟩, ⟨[], .newScanner "x" "1+2)" none⟩,
      ⟨["x", "a"], .newParser "p" "x" (some "a") none {}⟩, ⟨["p"], .parse "p" none⟩,
      ⟨[], .newScanner "y" "(1-2)*3" none⟩,
      ⟨["y", "a"], .newParser "q" "y" (some "a") none {}⟩, ⟨["q"], .expression "q" none⟩,
      ⟨["a"], .takeTemporary "a"⟩],
    by cbv, (allocator_names_are_distinct 0).1 _ _⟩

end ThreeAddress.Session
