import Mathlib

/-!
# Cursors

A decoder walks a sequence with an offset that it moves as it reads. The offset keeps its last
value when the decoder fails.
-/

namespace Ade.Library

abbrev Cursor (ε α : Type) := ExceptT ε (StateM Nat) α

namespace Cursor

variable {τ ε δ α β : Type}

def runAt (cursor : Cursor ε α) (offset : Nat) : Except ε α × Nat := StateT.run cursor.run offset

@[simp] theorem runAt_pure (value : α) (offset : Nat) :
    runAt (pure value : Cursor ε α) offset = (.ok value, offset) := rfl

@[simp] theorem runAt_throw (failure : ε) (offset : Nat) :
    runAt (throw failure : Cursor ε α) offset = (.error failure, offset) := rfl

@[simp] theorem runAt_get (offset : Nat) :
    runAt (get : Cursor ε Nat) offset = (.ok offset, offset) := rfl

@[simp] theorem runAt_set (target offset : Nat) :
    runAt (set target : Cursor ε PUnit) offset = (.ok ⟨⟩, target) := rfl

@[simp] theorem runAt_modify (move : Nat → Nat) (offset : Nat) :
    runAt (modify move : Cursor ε PUnit) offset = (.ok ⟨⟩, move offset) := rfl

theorem runAt_bind (cursor : Cursor ε α) (next : α → Cursor ε β) (offset : Nat) :
    runAt (cursor >>= next) offset =
      match runAt cursor offset with
      | (.ok value, after) => runAt (next value) after
      | (.error failure, after) => (.error failure, after) := by
  simp only [runAt, ExceptT.run_bind, StateT.run_bind]
  rcases StateT.run cursor.run offset with ⟨_ | _, after⟩ <;> rfl

@[simp] theorem runAt_map (f : α → β) (cursor : Cursor ε α) (offset : Nat) :
    runAt (f <$> cursor) offset = ((runAt cursor offset).1.map f, (runAt cursor offset).2) := by
  simp only [runAt, ExceptT.run_map, StateT.run_map]
  rcases StateT.run cursor.run offset with ⟨_ | _, after⟩ <;> rfl

theorem runAt_bind_ok {cursor : Cursor ε α} {next : α → Cursor ε β} {offset after : Nat} {value : α}
    (ran : runAt cursor offset = (.ok value, after)) :
    runAt (cursor >>= next) offset = runAt (next value) after := by
  rw [runAt_bind, ran]

theorem of_runAt_bind_ok {cursor : Cursor ε α} {next : α → Cursor ε β} {offset after : Nat}
    {result : β} (ran : runAt (cursor >>= next) offset = (.ok result, after)) :
    ∃ value middle, runAt cursor offset = (.ok value, middle) ∧
      runAt (next value) middle = (.ok result, after) := by
  rw [runAt_bind] at ran
  rcases first : runAt cursor offset with ⟨failure | value, middle⟩
  · rw [first] at ran
    cases ran
  · rw [first] at ran
    exact ⟨value, middle, rfl, ran⟩

@[simp] theorem runAt_liftExcept (result : Except ε α) (offset : Nat) :
    runAt (liftExcept result : Cursor ε α) offset = (result, offset) := by
  cases result <;> rfl

theorem runAt_adapt (wrap : ε → δ) (cursor : Cursor ε α) (offset : Nat) :
    runAt (ExceptT.adapt wrap cursor) offset =
      ((runAt cursor offset).1.mapError wrap, (runAt cursor offset).2) := by
  rfl

/-- A function of the offset, as a cursor. -/
def ofRun (run : Nat → Except ε α × Nat) : Cursor ε α := ExceptT.mk fun offset => pure (run offset)

@[simp] theorem runAt_ofRun (run : Nat → Except ε α × Nat) (offset : Nat) :
    runAt (ofRun run) offset = run offset := rfl

def times (element : Cursor ε α) : Nat → Cursor ε (List α)
  | 0 => pure []
  | count + 1 => do
      let first ← element
      let rest ← times element count
      return first :: rest

def iterate (body : α → Cursor ε α) : Nat → α → Cursor ε α
  | 0, state => pure state
  | count + 1, state => do iterate body count (← body state)

/-- Started where `inv` holds, the cursor stops where it holds, and its failures are among `fails`. -/
def Ensures (inv : Nat → Prop) (fails : ε → Prop) (cursor : Cursor ε α) : Prop :=
  ∀ offset, inv offset → inv (runAt cursor offset).2 ∧
    ∀ failure, (runAt cursor offset).1 = .error failure → fails failure

namespace Ensures

variable {inv : Nat → Prop} {fails : ε → Prop}

theorem pure (value : α) : Ensures inv fails (pure value : Cursor ε α) := by
  intro offset holds
  refine ⟨holds, fun failure failed => ?_⟩
  cases failed

theorem throw {failure : ε} (allowed : fails failure) :
    Ensures inv fails (throw failure : Cursor ε α) := by
  intro offset holds
  refine ⟨holds, fun other failed => ?_⟩
  cases failed
  exact allowed

theorem bind {cursor : Cursor ε α} {next : α → Cursor ε β} (first : Ensures inv fails cursor)
    (second : ∀ value, Ensures inv fails (next value)) : Ensures inv fails (cursor >>= next) := by
  intro offset holds
  obtain ⟨held, allowed⟩ := first offset holds
  rw [runAt_bind]
  rcases ran : runAt cursor offset with ⟨failure | value, after⟩
  · rw [ran] at held allowed
    refine ⟨held, fun other failed => ?_⟩
    cases failed
    exact allowed failure rfl
  · rw [ran] at held
    exact second value after held

theorem ite {condition : Prop} [Decidable condition] {cursor other : Cursor ε α}
    (taken : Ensures inv fails cursor) (otherwise : Ensures inv fails other) :
    Ensures inv fails (if condition then cursor else other) := by
  split_ifs
  · exact taken
  · exact otherwise

end Ensures

/-- More data only matters to a read that ran out of it. -/
def Extensible (ranOut : ε → Prop) (read : List τ → Cursor ε α) : Prop :=
  ∀ data more offset,
    (∃ failure after, runAt (read data) offset = (.error failure, after) ∧ ranOut failure) ∨
      runAt (read (data ++ more)) offset = runAt (read data) offset

namespace Extensible

variable {ranOut : ε → Prop} {read : List τ → Cursor ε α}

theorem const (cursor : Cursor ε α) : Extensible ranOut fun _ : List τ => cursor :=
  fun _ _ _ => .inr rfl

theorem bind {next : α → List τ → Cursor ε β} (first : Extensible ranOut read)
    (second : ∀ value, Extensible ranOut (next value)) :
    Extensible ranOut fun data => read data >>= fun value => next value data := by
  intro data more offset
  simp only [runAt_bind]
  rcases first data more offset with ⟨failure, after, ran, out⟩ | same
  · rw [ran]
    exact .inl ⟨failure, after, rfl, out⟩
  · rw [same]
    rcases runAt (read data) offset with ⟨failure | value, after⟩
    · exact .inr rfl
    · exact second value data more after

theorem get_bind {next : Nat → List τ → Cursor ε α} (each : ∀ start, Extensible ranOut (next start)) :
    Extensible ranOut fun data => (get : Cursor ε Nat) >>= fun start => next start data :=
  (const get).bind each

theorem ite {condition : Prop} [Decidable condition] {read' : List τ → Cursor ε α}
    (taken : Extensible ranOut read) (otherwise : Extensible ranOut read') :
    Extensible ranOut fun data => if condition then read data else read' data := by
  by_cases holds : condition
  · simpa only [if_pos holds] using taken
  · simpa only [if_neg holds] using otherwise

end Extensible

/-- `read` turns the segment `written`, wherever it stands in the data, into `value`. -/
def Reads (read : List τ → Cursor ε α) (written : List τ) (value : α) : Prop :=
  ∀ before after, runAt (read (before ++ written ++ after)) before.length =
    (.ok value, before.length + written.length)

namespace Reads

theorem pure (value : α) : Reads (fun _ : List τ => (pure value : Cursor ε α)) [] value :=
  fun _ _ => rfl

theorem bind {read : List τ → Cursor ε α} {next : α → List τ → Cursor ε β}
    {written written' : List τ} {value : α} {result : β}
    (first : Reads read written value) (second : Reads (next value) written' result) :
    Reads (fun data => read data >>= fun a => next a data) (written ++ written') result := by
  intro before after
  have head := first before (written' ++ after)
  have tail := second (before ++ written) after
  simp only [List.append_assoc, List.length_append] at head tail ⊢
  rw [runAt_bind_ok head, tail, Nat.add_assoc]

theorem last {read : List τ → Cursor ε α} {next : α → List τ → Cursor ε β}
    {written : List τ} {value : α} {result : β}
    (first : Reads read written value) (second : Reads (next value) [] result) :
    Reads (fun data => read data >>= fun a => next a data) written result := by
  simpa using first.bind second

theorem skip {read : List τ → Cursor ε α} {next : α → List τ → Cursor ε β}
    {written : List τ} {value : α} {result : β}
    (first : Reads read [] value) (second : Reads (next value) written result) :
    Reads (fun data => read data >>= fun a => next a data) written result := by
  simpa using first.bind second

theorem map {read : List τ → Cursor ε α} {written : List τ} {value : α} (f : α → β)
    (first : Reads read written value) : Reads (fun data => f <$> read data) written (f value) := by
  intro before after
  rw [runAt_map, first before after]
  rfl

/-- The offset itself may be read: what follows must not depend on it. -/
theorem get_bind {next : Nat → List τ → Cursor ε β} {written : List τ} {result : β}
    (anywhere : ∀ start, Reads (next start) written result) :
    Reads (fun data => (get : Cursor ε Nat) >>= fun start => next start data) written result := by
  intro before after
  rw [runAt_bind_ok (runAt_get _)]
  exact anywhere before.length before after

theorem adapt {read : List τ → Cursor ε α} {written : List τ} {value : α} (wrap : ε → δ)
    (first : Reads read written value) :
    Reads (fun data => (ExceptT.adapt wrap (read data) : Cursor δ α)) written value := by
  intro before after
  rw [runAt_adapt, first before after]
  rfl

end Reads

/-! ## Elements one after the other -/

/-- From the offset on, `element` takes one segment after the other. -/
inductive RunsOver (element : Cursor ε α) : Nat → List (List τ) → List α → Prop
  | nil (offset : Nat) : RunsOver element offset [] []
  | cons {offset : Nat} {chunk : List τ} {chunks : List (List τ)} {value : α} {values : List α}
      (head : runAt element offset = (.ok value, offset + chunk.length))
      (tail : RunsOver element (offset + chunk.length) chunks values) :
      RunsOver element offset (chunk :: chunks) (value :: values)

theorem RunsOver.times {element : Cursor ε α} {offset : Nat} {chunks : List (List τ)}
    {values : List α} (runs : RunsOver element offset chunks values) :
    runAt (times element chunks.length) offset =
      (.ok values, offset + chunks.flatten.length) := by
  induction runs with
  | nil offset => rfl
  | @cons offset chunk chunks value values head tail ih =>
      rw [List.length_cons, Cursor.times, runAt_bind_ok head, runAt_bind_ok ih, List.flatten_cons,
        List.length_append, Nat.add_assoc]
      rfl

theorem Reads.runsOver {element : List τ → Cursor ε α} {chunks : List (List τ)} {values : List α}
    (each : List.Forall₂ (Reads element) chunks values) (before after : List τ) :
    RunsOver (element (before ++ chunks.flatten ++ after)) before.length chunks values := by
  induction each generalizing before with
  | nil => exact .nil _
  | @cons chunk value chunks values reads _ ih =>
      have head := reads before (chunks.flatten ++ after)
      have tail := ih (before ++ chunk)
      rw [List.length_append] at tail
      rw [List.flatten_cons]
      simp only [List.append_assoc] at head tail ⊢
      exact .cons head tail

theorem Reads.times {element : List τ → Cursor ε α} {chunks : List (List τ)} {values : List α}
    (each : List.Forall₂ (Reads element) chunks values) :
    Reads (fun data => Cursor.times (element data) chunks.length) chunks.flatten values :=
  fun before after => (Reads.runsOver each before after).times

/-! ## What a successful run has read -/

/-- Wherever `read` succeeds it has read a segment that it reads the same way everywhere, and that
has the `fact`. The argument of `read` is an offset that may only occur in its failures. -/
def Exact (read : Nat → List τ → Cursor ε α) (fact : List τ → α → Prop) : Prop :=
  ∀ start before rest value after,
    runAt (read start (before ++ rest)) before.length = (.ok value, after) →
    ∃ written remaining, rest = written ++ remaining ∧ after = before.length + written.length ∧
      (∀ anywhere, Reads (read anywhere) written value) ∧ fact written value

namespace Exact

variable {read : Nat → List τ → Cursor ε α} {fact other : List τ → α → Prop}

theorem mono (exact_ : Exact read fact) (weaker : ∀ written value, fact written value →
    other written value) : Exact read other := by
  intro start before rest value after ran
  obtain ⟨written, remaining, split, moved, reads, known⟩ := exact_ start before rest value after ran
  exact ⟨written, remaining, split, moved, reads, weaker written value known⟩

/-- What is read is read the same everywhere. -/
theorem reads {read : List τ → Cursor ε α} (exact_ : Exact (fun _ => read) fact) :
    Exact (fun _ => read) fun written value => Reads read written value ∧ fact written value := by
  intro start before rest value after ran
  obtain ⟨written, remaining, split, moved, reads, known⟩ := exact_ start before rest value after ran
  exact ⟨written, remaining, split, moved, reads, reads 0, known⟩

theorem pure (value : α) : Exact (fun _ (_ : List τ) => (pure value : Cursor ε α))
    fun written result => written = [] ∧ result = value := by
  intro start before rest result after ran
  cases ran
  exact ⟨[], rest, rfl, rfl, fun _ => .pure value, rfl, rfl⟩

theorem fails (never : ∀ start data offset, ∃ failure,
    (runAt (read start data) offset).1 = .error failure) : Exact read fact := by
  intro start before rest value after ran
  obtain ⟨failure, failed⟩ := never start (before ++ rest) before.length
  rw [ran] at failed
  cases failed

theorem thrown (failure : Nat → ε) : Exact (fun start (_ : List τ) => (throw (failure start) : Cursor ε α))
    fact :=
  fails fun start _ _ => ⟨failure start, rfl⟩

theorem thrownHere (failure : Nat → Nat → ε) : Exact
    (fun start (_ : List τ) => (get >>= fun here => throw (failure start here) : Cursor ε α)) fact :=
  fails fun start _ offset => ⟨failure start offset, rfl⟩

theorem bind {next : Nat → α → List τ → Cursor ε β} {facts : α → List τ → β → Prop}
    (first : Exact read fact) (second : ∀ value, Exact (fun start => next start value) (facts value)) :
    Exact (fun start data => read start data >>= fun value => next start value data)
      fun written result => ∃ head tail value, written = head ++ tail ∧ fact head value ∧
        facts value tail result := by
  intro start before rest result after ran
  rw [runAt_bind] at ran
  rcases firstRan : runAt (read start (before ++ rest)) before.length with ⟨failure | value, middle⟩
  · rw [firstRan] at ran
    cases ran
  · rw [firstRan] at ran
    obtain ⟨head, remaining, rfl, rfl, headReads, known⟩ :=
      first start before rest value middle firstRan
    rw [← List.append_assoc, ← List.length_append] at ran
    obtain ⟨tail, remaining, rfl, rfl, tailReads, known'⟩ :=
      second value start (before ++ head) remaining result after ran
    refine ⟨head ++ tail, remaining, (List.append_assoc ..).symm, ?_, ?_, ?_⟩
    · rw [List.length_append, List.length_append, Nat.add_assoc]
    · exact fun anywhere => (headReads anywhere).bind (tailReads anywhere)
    · exact ⟨head, tail, value, rfl, known, known'⟩

/-- What follows without reading anything. -/
theorem map {f : α → β} (first : Exact read fact) : Exact (fun start data => f <$> read start data)
    fun written result => ∃ value, fact written value ∧ result = f value := by
  intro start before rest result after ran
  rw [runAt_map] at ran
  rcases firstRan : runAt (read start (before ++ rest)) before.length with ⟨failure | value, middle⟩
  · rw [firstRan] at ran
    cases ran
  · rw [firstRan] at ran
    cases ran
    obtain ⟨written, remaining, split, moved, reads, known⟩ :=
      first start before rest value middle firstRan
    exact ⟨written, remaining, split, moved, fun anywhere => (reads anywhere).map f, value, known, rfl⟩

theorem adapt (wrap : ε → δ) (exact_ : Exact read fact) :
    Exact (fun start data => ExceptT.adapt wrap (read start data)) fact := by
  intro start before rest value after ran
  rw [runAt_adapt] at ran
  rcases inner : runAt (read start (before ++ rest)) before.length with ⟨failure | found, final⟩
  · rw [inner] at ran
    cases ran
  · rw [inner] at ran
    cases ran
    obtain ⟨written, remaining, split, moved, reads, known⟩ := exact_ start before rest value final inner
    exact ⟨written, remaining, split, moved, fun anywhere => (reads anywhere).adapt wrap, known⟩

theorem ite {condition : Prop} [Decidable condition] {read' : Nat → List τ → Cursor ε α}
    (taken : condition → Exact read fact) (otherwise : ¬ condition → Exact read' fact) :
    Exact (fun start data => if condition then read start data else read' start data) fact := by
  by_cases holds : condition
  · simpa only [if_pos holds] using taken holds
  · simpa only [if_neg holds] using otherwise holds

theorem get_bind (anywhere : Exact read fact) :
    Exact (fun _ data => (get : Cursor ε Nat) >>= fun start => read start data) fact := by
  intro _ before rest value after ran
  rw [runAt_bind_ok (runAt_get _)] at ran
  obtain ⟨written, remaining, split, moved, reads, known⟩ :=
    anywhere before.length before rest value after ran
  exact ⟨written, remaining, split, moved, fun _ => .get_bind fun start => reads start, known⟩

theorem times {element : Nat → List τ → Cursor ε α} (each : Exact element fact) (count : Nat) :
    Exact (fun start data => times (element start data) count) fun written values =>
      ∃ chunks, written = chunks.flatten ∧ chunks.length = count ∧ List.Forall₂ fact chunks values := by
  induction count with
  | zero =>
      refine (Exact.pure []).mono ?_
      rintro written values ⟨rfl, rfl⟩
      exact ⟨[], rfl, rfl, .nil⟩
  | succ count ih =>
      refine (each.bind fun first => ih.bind fun rest => Exact.pure (first :: rest)).mono ?_
      rintro written values ⟨head, tail, first, rfl, known, middle, none, rest, rfl, ⟨chunks, rfl,
        counted, known'⟩, rfl, rfl⟩
      refine ⟨head :: chunks, ?_, by rw [List.length_cons, counted], .cons known known'⟩
      rw [List.flatten_cons, List.append_nil]

/-- The states of a loop, and the segment that each round has read. -/
inductive Chain (step : α → List τ → α → Prop) : α → List (List τ) → α → Prop
  | nil (state : α) : Chain step state [] state
  | cons {state next last : α} {chunk : List τ} {chunks : List (List τ)}
      (head : step state chunk next) (tail : Chain step next chunks last) :
      Chain step state (chunk :: chunks) last

theorem iterate {body : Nat → List τ → α → Cursor ε α} {step : α → List τ → α → Prop}
    (each : ∀ state, Exact (fun start data => body start data state) (step state)) (count : Nat)
    (state : α) :
    Exact (fun start data => iterate (body start data) count state) fun written last =>
      ∃ chunks, written = chunks.flatten ∧ chunks.length = count ∧ Chain step state chunks last := by
  induction count generalizing state with
  | zero =>
      refine (Exact.pure state).mono ?_
      rintro written last ⟨rfl, rfl⟩
      exact ⟨[], rfl, rfl, .nil last⟩
  | succ count ih =>
      refine ((each state).bind fun next => ih next).mono ?_
      rintro written last ⟨head, tail, next, rfl, stepped, chunks, rfl, counted, chained⟩
      exact ⟨head :: chunks, rfl, by rw [List.length_cons, counted], .cons stepped chained⟩

theorem Chain.reads {body : List τ → α → Cursor ε α} {first last : α} {chunks : List (List τ)}
    (chain : Chain (fun state chunk next => Reads (fun data => body data state) chunk next) first chunks
      last) :
    Reads (fun data => Cursor.iterate (body data) chunks.length first) chunks.flatten last := by
  induction chain with
  | nil state => exact .pure state
  | cons head _ ih => exact head.bind ih

/-- What takes up the whole sequence is read the same wherever it stands. -/
theorem reads_of_run {read : List τ → Cursor ε α} (exact_ : Exact (fun _ => read) fact)
    {whole : List τ} {value : α} (ran : runAt (read whole) 0 = (.ok value, whole.length)) :
    Reads read whole value ∧ fact whole value := by
  obtain ⟨written, remaining, rfl, moved, reads, known⟩ := exact_ 0 [] _ _ _ ran
  have nothing : remaining = [] := by
    rw [List.length_nil, Nat.zero_add, List.length_append] at moved
    exact List.eq_nil_of_length_eq_zero (by omega)
  subst nothing
  rw [List.append_nil]
  exact ⟨reads 0, known⟩

theorem fact_of_reads {read : List τ → Cursor ε α} (exact_ : Exact (fun _ => read) fact)
    {whole : List τ} {value : α} (reads : Reads read whole value) : fact whole value := by
  have ran := reads [] []
  rw [List.nil_append, List.append_nil, List.length_nil, Nat.zero_add] at ran
  exact (exact_.reads_of_run ran).2

end Exact

/-! ## Encodings without an end mark -/

/-- A cursor that succeeds reads the same wherever the segment it has read stands. -/
def Local (read : List τ → Cursor ε α) : Prop := Exact (fun _ => read) fun _ _ => True

namespace Local

variable {read : List τ → Cursor ε α}

theorem of_exact {fact : List τ → α → Prop} (exact_ : Exact (fun _ => read) fact) : Local read :=
  Exact.mono exact_ fun _ _ _ => trivial

theorem pure (value : α) : Local fun _ : List τ => (pure value : Cursor ε α) := of_exact (.pure value)

theorem throw (failure : ε) : Local fun _ : List τ => (throw failure : Cursor ε α) :=
  .thrown fun _ => failure

theorem bind {next : α → List τ → Cursor ε β} (first : Local read)
    (second : ∀ value, Local (next value)) : Local fun data => read data >>= fun a => next a data :=
  of_exact (Exact.bind first second)

theorem ite {condition : Prop} [Decidable condition] {read' : List τ → Cursor ε α}
    (taken : Local read) (otherwise : Local read') :
    Local fun data => if condition then read data else read' data :=
  Exact.ite (fun _ => taken) fun _ => otherwise

theorem adapt (wrap : ε → δ) (first : Local read) :
    Local fun data => (ExceptT.adapt wrap (read data) : Cursor δ α) :=
  Exact.adapt wrap first

end Local

def decodeFrom (read : List τ → Cursor ε α) (data : List τ) : Except ε (α × Nat) :=
  let (value, consumed) := (read data).runAt 0
  value.map (·, consumed)

/-- What is encoded is decoded from the front of any data, and never from less. -/
structure SelfDelimiting (encode : α → List τ) (decode : List τ → Except ε (α × Nat)) : Prop where
  decodes : ∀ value rest, decode (encode value ++ rest) = .ok (value, (encode value).length)
  injective : Function.Injective encode
  prefixFree : ∀ value other, encode value <+: encode other → value = other
  rejects : ∀ value short, short <+: encode value → short ≠ encode value →
    ∃ failure, decode short = .error failure

theorem decodeFrom_reads {read : List τ → Cursor ε α} {written : List τ} {value : α}
    (reads : Reads read written value) (rest : List τ) :
    decodeFrom read (written ++ rest) = .ok (value, written.length) := by
  have ran := reads [] rest
  rw [List.nil_append, List.length_nil, Nat.zero_add] at ran
  unfold decodeFrom
  rw [ran]
  rfl

/-- A shorter segment that could be read would be read in the longer one as well. -/
theorem decodeFrom_short {read : List τ → Cursor ε α} (everywhere : Local read) {short rest : List τ}
    {value : α} (reads : Reads read (short ++ rest) value) (more : rest ≠ []) :
    ∃ failure, decodeFrom read short = .error failure := by
  unfold decodeFrom
  rcases ran : (read short).runAt 0 with ⟨failure | found, after⟩
  · exact ⟨failure, rfl⟩
  · obtain ⟨written, remaining, rfl, -, found_, -⟩ := everywhere 0 [] short found after ran
    have inside := decodeFrom_reads (found_ 0) (remaining ++ rest)
    have whole := decodeFrom_reads reads []
    rw [List.append_nil, List.append_assoc, inside, Except.ok.injEq, Prod.mk.injEq] at whole
    have longer := whole.2
    have positive := List.length_pos_iff.mpr more
    simp only [List.length_append] at longer
    omega

theorem selfDelimiting {encode : α → List τ} {read : List τ → Cursor ε α}
    (reads : ∀ value, Reads read (encode value) value) (everywhere : Local read) :
    SelfDelimiting encode (decodeFrom read) := by
  have decodes : ∀ value rest,
      decodeFrom read (encode value ++ rest) = .ok (value, (encode value).length) :=
    fun value rest => decodeFrom_reads (reads value) rest
  have prefixFree : ∀ value other, encode value <+: encode other → value = other := by
    rintro value other ⟨rest, longer⟩
    have whole := decodes other []
    rw [List.append_nil, ← longer, decodes, Except.ok.injEq, Prod.mk.injEq] at whole
    exact whole.1
  refine ⟨decodes, fun value other same => prefixFree value other ⟨[], by rw [same, List.append_nil]⟩,
    prefixFree, ?_⟩
  rintro value short ⟨rest, longer⟩ strict
  apply decodeFrom_short everywhere (longer ▸ reads value)
  rintro rfl
  exact strict (by rw [← longer, List.append_nil])

end Cursor

end Ade.Library
