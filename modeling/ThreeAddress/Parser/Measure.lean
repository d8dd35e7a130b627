import ThreeAddress.Parser.Step

/-!
# Parsing ends

Every step makes what is ahead of the parser smaller: moving past a token takes text or the token
itself, and joining two operands takes a frame.
-/

namespace ThreeAddress

namespace Parser

/-- What is ahead of the parser: unread text counts double, to pay for the frame it may push. -/
def measure (task : Task) (p : Parser) : Nat :=
  2 * p.scanner.size + task.stack.length

theorem size_lt_of_advance {p p' : Parser} (h : advance.run p = .ok () p')
    (hcurrent : p.scanner.current.isEnd = false) : p'.scanner.size < p.scanner.size := by
  simp only [EStateM.run, advance] at h
  split at h
  · rename_i hadvance
    obtain ⟨-, rfl⟩ := EStateM.Result.ok.inj h
    exact Scanner.size_lt_of_advance hadvance hcurrent
  · cases h

theorem scanner_eq_of_openGroup {span : Span} {p p' : Parser}
    (h : (openGroup span).run p = .ok () p') : p'.scanner = p.scanner := by
  simp only [openGroup, EStateM.run_bind, EStateM.run_modify, EStateM.run_get] at h
  split at h
  · cases h
  · obtain ⟨-, rfl⟩ := EStateM.Result.ok.inj h
    rfl

theorem scanner_eq_of_join {op : Operator} {span : Span} {left right e : Expr} {p p' : Parser}
    (h : (join op span left right).run p = .ok e p') : p'.scanner = p.scanner := by
  simp only [join, EStateM.run_bind, EStateM.run_get, EStateM.run_set] at h
  split at h
  · cases h
  · obtain ⟨-, rfl⟩ := EStateM.Result.ok.inj h
    rfl

theorem measure_lt_of_shift {op : Operator} {span : Span} {left : Expr} {stack : List Frame}
    {focus : Focus} {task : Task} {p p' : Parser} (hcurrent : p.scanner.current.isEnd = false)
    (h : (shift op span left stack).run p = .ok (.more task) p') :
    measure task p' < measure ⟨stack, focus⟩ p := by
  simp only [shift, EStateM.run_bind] at h
  split at h
  · rename_i hadvance
    obtain ⟨htask, rfl⟩ := EStateM.Result.ok.inj h
    obtain rfl := Progress.more.inj htask
    have := size_lt_of_advance hadvance hcurrent
    simp only [measure, List.length_cons]
    omega
  · cases h

theorem measure_lt_of_reduce {op : Operator} {span : Span} {left right : Expr} {frame : Frame}
    {stack : List Frame} {focus : Focus} {task : Task} {p p' : Parser}
    (h : (reduce op span left right stack).run p = .ok (.more task) p') :
    measure task p' < measure ⟨frame :: stack, focus⟩ p := by
  simp only [reduce, EStateM.run_bind] at h
  split at h
  · rename_i hjoin
    obtain ⟨htask, rfl⟩ := EStateM.Result.ok.inj h
    obtain rfl := Progress.more.inj htask
    have := scanner_eq_of_join hjoin
    simp [measure, this]
  · cases h

theorem measure_lt_of_stepOperand {stack : List Frame} {task : Task} {p p' : Parser}
    (h : (stepOperand stack).run p = .ok (.more task) p') :
    measure task p' < measure ⟨stack, .operand⟩ p := by
  simp only [stepOperand, EStateM.run_bind, EStateM.run_get] at h
  split at h
  · rename_i value hkind
    simp only [EStateM.run_bind] at h
    split at h
    · rename_i hadvance
      obtain ⟨htask, rfl⟩ := EStateM.Result.ok.inj h
      obtain rfl := Progress.more.inj htask
      have := size_lt_of_advance hadvance (by simp [Token.isEnd, hkind])
      simp only [measure]
      omega
    · cases h
  · rename_i hkind
    simp only [EStateM.run_bind] at h
    split at h
    · rename_i hadvance
      split at h
      · rename_i hopen
        obtain ⟨htask, rfl⟩ := EStateM.Result.ok.inj h
        obtain rfl := Progress.more.inj htask
        have hscanner := scanner_eq_of_openGroup hopen
        have := size_lt_of_advance hadvance (by simp [Token.isEnd, hkind])
        simp only [measure, hscanner, List.length_cons]
        omega
      · cases h
    · cases h
  · cases h

theorem measure_lt_of_stepComplete {stack : List Frame} {e : Expr} {task : Task} {p p' : Parser}
    (h : (stepComplete stack e).run p = .ok (.more task) p') :
    measure task p' < measure ⟨stack, .complete e⟩ p := by
  simp only [stepComplete, EStateM.run_bind, EStateM.run_get] at h
  split at h
  · split at h
    · rename_i hkind
      split at h
      · exact measure_lt_of_shift (by simp [Token.isEnd, hkind]) h
      · exact measure_lt_of_reduce h
    · exact measure_lt_of_reduce h
  · split at h
    · rename_i hkind
      exact measure_lt_of_shift (by simp [Token.isEnd, hkind]) h
    · rename_i hkind
      simp only [EStateM.run_bind] at h
      split at h
      · rename_i hadvance
        obtain ⟨htask, rfl⟩ := EStateM.Result.ok.inj h
        obtain rfl := Progress.more.inj htask
        have := size_lt_of_advance hadvance (by simp [Token.isEnd, hkind])
        simp only [measure, List.length_cons]
        omega
      · cases h
    · cases h
  · split at h
    · rename_i hkind
      exact measure_lt_of_shift (by simp [Token.isEnd, hkind]) h
    · cases h

theorem measure_lt_of_step {task task' : Task} {p p' : Parser}
    (h : (step task).run p = .ok (.more task') p') : measure task' p' < measure task p := by
  obtain ⟨stack, focus⟩ := task
  cases focus with
  | operand => exact measure_lt_of_stepOperand h
  | complete e => exact measure_lt_of_stepComplete h

end Parser

end ThreeAddress
