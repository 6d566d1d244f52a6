import Exemplar.Proofs.WellFormed

/-!
# Batches that fail

A batch that fails leaves the model alone and uses up its number.  A caller could as
well have left it out: the other batches succeed all the same, and the model comes out
the same but for the numbers of the batches.

The numbers matter in strict mode alone, where a type may change in the batch that
defined it and in no other.  What passes there passes as well when the batches get
other numbers (`Model.renumber`), because batches of one number keep one number
(`Event.apply_renumber`).  `Builder.addBatch_renumber` is the same for a whole batch,
and `Mirrors.concat` goes from one call of a sequence to the next.
-/

namespace Exemplar

/-! ## Other numbers for batches -/

/-- A model with other numbers for its batches. -/
def Model.renumber (model : Model) (change : BatchNumber → BatchNumber) : Model :=
  { model with named := model.named.mapValues fun _ number => change number }

/-- A batch under another number. -/
def Batch.renumber (batch : Batch) (change : BatchNumber → BatchNumber) : Batch :=
  { batch with number := change batch.number }

namespace Model

variable (model : Model) (change : BatchNumber → BatchNumber)

/-- The batch that defined a name gets its new number. -/
theorem definingBatch?_renumber (name : Name) :
    (model.renumber change).definingBatch? name = (model.definingBatch? name).map change :=
  model.named.get?_mapValues (fun _ number => change number) name

/-- New numbers for batches name no type and unname none. -/
theorem isNamed_renumber (name : Name) :
    (model.renumber change).isNamed name = model.isNamed name := by
  rw [isNamed_eq_isSome, isNamed_eq_isSome, definingBatch?_renumber, Option.isSome_map]

/-- A registration under a new number is the registration with the new number. -/
theorem register_renumber (name : Name) (number : BatchNumber) :
    (model.renumber change).register name (change number) =
      (model.register name number).renumber change := by
  simp only [register, isNamed_renumber]
  split
  · rfl
  · simp only [renumber, OrderedMap.mapValues_insert]

variable {model change}

/-- Only the numbers that a model has matter. -/
theorem renumber_congr {other : BatchNumber → BatchNumber}
    (hsame : ∀ name number, model.definingBatch? name = some number →
      change number = other number) : model.renumber change = model.renumber other := by
  have hnamed : (model.renumber change).named = (model.renumber other).named := by
    refine OrderedMap.ext_get? ?_ fun name => ?_
    · simp only [renumber, OrderedMap.keys_mapValues]
    · change (model.renumber change).definingBatch? name =
        (model.renumber other).definingBatch? name
      rw [definingBatch?_renumber, definingBatch?_renumber]
      exact Option.map_congr fun number hnumber => hsame name number hnumber
  simpa only [renumber, mk.injEq, true_and, and_true] using hnamed

/-- A change that a batch may make it may make under another number. -/
theorem refusal?_renumber {batch : Batch} {key : Keypath} {fields : List Text}
    (hpasses : model.refusal? batch key fields = none) :
    (model.renumber change).refusal? (batch.renumber change) key fields = none := by
  cases fields with
  | nil => rfl
  | cons field later =>
      rw [refusal?, Option.bind_eq_none_iff] at hpasses ⊢
      intro changed hchanged
      rw [definingBatch?_renumber] at hchanged
      obtain ⟨definedIn, hdefined, rfl⟩ := Option.map_eq_some_iff.mp hchanged
      have hmay := hpasses definedIn hdefined
      by_cases hown : definedIn = batch.number
      · simp [Batch.renumber, hown]
      · have hloose : batch.strict = false := by simpa [hown] using hmay
        simp [Batch.renumber, hloose]

end Model

namespace Event

variable {change : BatchNumber → BatchNumber} {batch : Batch} {model after : Model}

/-- The effect of an event is the same under new numbers. -/
theorem effect_renumber (event : Event) (number : BatchNumber) :
    event.effect (change number) (model.renumber change) =
      (event.effect number model).renumber change := by
  cases event with
  | sighted s => rfl
  | registered name => exact model.register_renumber change name number

/-- **One event.**  What is not refused is not refused under other numbers, and has the same
effect. -/
theorem apply_renumber {event : Event} (hok : event.apply batch model = .ok after) :
    event.apply (batch.renumber change) (model.renumber change) = .ok (after.renumber change) := by
  cases hconflict : event.conflict? batch model with
  | some conflict => simp only [apply, hconflict, reduceCtorEq] at hok
  | none =>
      obtain rfl : event.effect batch.number model = after := by
        simpa only [apply, hconflict, Except.ok.injEq] using hok
      have hpasses : event.conflict? (batch.renumber change) (model.renumber change) = none := by
        cases event with
        | registered name => rfl
        | sighted s =>
            rw [conflict?, Option.bind_eq_none_iff] at hconflict ⊢
            exact fun old hold => Model.refusal?_renumber (hconflict old hold)
      simp only [apply, hpasses]
      exact congrArg Except.ok (event.effect_renumber batch.number)

/-- Events that were taken are taken under new numbers, with the same result. -/
theorem foldlM_apply_renumber {events : List Event}
    (hok : events.foldlM (Event.apply batch) model = .ok after) :
    events.foldlM (Event.apply (batch.renumber change)) (model.renumber change) =
      .ok (after.renumber change) := by
  induction events generalizing model with
  | nil =>
      obtain rfl := Except.ok.inj hok
      rfl
  | cons event rest ih =>
      rw [List.foldlM_cons] at hok ⊢
      cases hhead : event.apply batch model with
      | error failure =>
          rw [hhead] at hok
          cases hok
      | ok next =>
          rw [hhead] at hok
          rw [apply_renumber hhead]
          exact ih hok

end Event

/-- **One batch.**  A batch that succeeds succeeds with the same root on a model that differs in
the numbers of batches alone, and goes on to differ in them alone. -/
theorem Builder.addBatch_renumber {builder after other : Builder} {naming : Naming}
    {strict : Bool} {examples : Examples} {root : Name} {change : BatchNumber → BatchNumber}
    (hok : builder.addBatch naming strict examples = (.ok root, after))
    (hmodel : other.model = builder.model.renumber change)
    (hnumber : change (builder.batches + 1 : Nat) = (other.batches + 1 : Nat)) :
    other.addBatch naming strict examples =
      (.ok root, { model := after.model.renumber change, batches := other.batches + 1 }) := by
  obtain ⟨houtcome, hwhole, model, hevents, rfl⟩ := addBatch_eq_ok_iff.mp hok
  have hbatch : (builder.nextBatch naming strict).renumber change =
      other.nextBatch naming strict := by
    simp only [Batch.renumber, nextBatch, hnumber]
  have hrenumbered := @Event.foldlM_apply_renumber change _ _ _ _ hevents
  rw [hbatch, ← hmodel] at hrenumbered
  exact addBatch_eq_ok_iff.mpr ⟨houtcome, hwhole, _, hrenumbered, rfl⟩

/-! ## Calls with and without the failures among them -/

namespace Builder

/-- Batches can be added in two portions. -/
theorem afterAll_append (builder : Builder) (first later : List Delivery) :
    builder.afterAll (first ++ later) = (builder.afterAll first).afterAll later :=
  List.foldl_append

/-- The answers to the second portion are those of the builder after the first. -/
theorem answers_append (builder : Builder) (first later : List Delivery) :
    builder.answers (first ++ later) =
      builder.answers first ++ (builder.afterAll first).answers later := by
  induction first generalizing builder with
  | nil => rfl
  | cons delivery rest ih => exact congrArg (List.cons _) (ih _)

/-- Every batch is answered. -/
theorem length_answers (builder : Builder) (deliveries : List Delivery) :
    (builder.answers deliveries).length = deliveries.length := by
  induction deliveries generalizing builder with
  | nil => rfl
  | cons delivery rest ih => exact congrArg Nat.succ (ih _)

/-- Every batch uses up a number. -/
theorem batches_afterAll (builder : Builder) (deliveries : List Delivery) :
    (builder.afterAll deliveries).batches = builder.batches + deliveries.length := by
  have hadd : ∀ (before : Builder) (delivery : Delivery),
      (before.addBatch delivery.naming delivery.strict delivery.examples).2.batches =
        before.batches + 1 := by
    intro before delivery
    rw [addBatch_eq]
    split <;> rfl
  induction deliveries generalizing builder with
  | nil => rfl
  | cons delivery rest ih =>
      refine (ih _).trans ?_
      rw [hadd, List.length_cons]
      omega

/-- The batches that succeed when all of them are added one after the other. -/
def succeeding (builder : Builder) : List Delivery → List Delivery
  | [] => []
  | delivery :: rest =>
      let (answer, next) := builder.addBatch delivery.naming delivery.strict delivery.examples
      if answer.isOk then delivery :: next.succeeding rest else next.succeeding rest

/-- Which batches of the second portion succeed is decided after the first. -/
theorem succeeding_append (builder : Builder) (first later : List Delivery) :
    builder.succeeding (first ++ later) =
      builder.succeeding first ++ (builder.afterAll first).succeeding later := by
  induction first generalizing builder with
  | nil => rfl
  | cons delivery rest ih =>
      simp only [List.cons_append, succeeding, ih, afterAll, List.foldl_cons]
      split <;> rfl

end Builder

/-- How many of the first batches succeeded. -/
def successes (answers : List (Except BatchError Name)) (number : BatchNumber) : BatchNumber :=
  ((answers.take number.toNat).countP Except.isOk : Nat)

/-- Later answers do not change the number of an earlier batch. -/
theorem successes_append_of_le {answers : List (Except BatchError Name)} {number : BatchNumber}
    (hle : number ≤ answers.length) (later : List (Except BatchError Name)) :
    successes (answers ++ later) number = successes answers number := by
  rw [successes, successes, List.take_append_of_le_length (Int.toNat_le.mpr hle)]

/-- A failed batch does not count. -/
theorem successes_concat_error (answers : List (Except BatchError Name)) (failure : BatchError) :
    successes (answers ++ [.error failure]) = successes answers := by
  funext number
  have hnone : ∀ count, ([.error failure].take count : List (Except BatchError Name)).countP
      Except.isOk = 0 := by
    intro count
    refine List.countP_eq_zero.mpr fun answer hmem => ?_
    obtain rfl := List.mem_singleton.mp (List.mem_of_mem_take hmem)
    exact Bool.false_ne_true
  rw [successes, successes, List.take_append, List.countP_append, hnone, Nat.add_zero]

/-- The next batch that succeeds gets the next number. -/
theorem successes_concat_ok (answers : List (Except BatchError Name)) (root : Name) :
    successes (answers ++ [.ok root]) (answers.length + 1 : Nat) =
      (answers.countP Except.isOk + 1 : Nat) := by
  have hwhole : (answers ++ [Except.ok root]).take (answers.length + 1) =
      answers ++ [Except.ok root] := List.take_of_length_le (by simp)
  rw [successes, Int.toNat_natCast, hwhole, List.countP_append]
  rfl

/-- That some calls on a new builder come out the same without the failures among them, but for
the numbers of the batches. -/
structure Mirrors (deliveries : List Delivery) : Prop where
  answers : Builder.answers {} (Builder.succeeding {} deliveries) =
    (Builder.answers {} deliveries).filter Except.isOk
  model : (Builder.afterAll {} (Builder.succeeding {} deliveries)).model =
    (Builder.afterAll {} deliveries).model.renumber (successes (Builder.answers {} deliveries))

namespace Mirrors

variable {earlier : List Delivery} (hmirrors : Mirrors earlier)
include hmirrors

/-- Without the failed batches as many are counted as succeeded. -/
theorem batches : (Builder.afterAll {} (Builder.succeeding {} earlier)).batches =
    (Builder.answers {} earlier).countP Except.isOk := by
  rw [Builder.batches_afterAll, ← Builder.length_answers {}, hmirrors.answers,
    List.countP_eq_length_filter]
  exact Nat.zero_add _

/-- **One call more.**  If it fails, neither sequence changes but for its number; if it succeeds,
it does so in both. -/
theorem concat (delivery : Delivery) : Mirrors (earlier ++ [delivery]) := by
  cases hadded : (Builder.afterAll {} earlier).addBatch delivery.naming delivery.strict
      delivery.examples with
  | mk answer after =>
      have hanswers : Builder.answers {} (earlier ++ [delivery]) =
          Builder.answers {} earlier ++ [answer] := by
        rw [Builder.answers_append, Builder.answers, hadded]
        rfl
      have hafter : Builder.afterAll {} (earlier ++ [delivery]) = after := by
        rw [Builder.afterAll_append]
        exact congrArg Prod.snd hadded
      have hlast : Builder.succeeding {} (earlier ++ [delivery]) =
          Builder.succeeding {} earlier ++ if answer.isOk then [delivery] else [] := by
        rw [Builder.succeeding_append, Builder.succeeding, hadded]
        rfl
      cases answer with
      | error failure =>
          have hkept : Builder.succeeding {} (earlier ++ [delivery]) =
              Builder.succeeding {} earlier := hlast.trans (List.append_nil _)
          refine ⟨?_, ?_⟩
          · rw [hkept, hmirrors.answers, hanswers, List.filter_append]
            exact (List.append_nil _).symm
          · rw [hkept, hmirrors.model, hanswers, hafter, successes_concat_error,
              Builder.addBatch_error hadded]
      | ok root =>
          have hmore : Builder.succeeding {} (earlier ++ [delivery]) =
              Builder.succeeding {} earlier ++ [delivery] := hlast
          have hcount : (Builder.answers {} earlier).length =
              (Builder.afterAll {} earlier).batches := by
            rw [Builder.length_answers, Builder.batches_afterAll]
            exact (Nat.zero_add _).symm
          have hsound := (Builder.Reachable.start.afterAll earlier).sound
          have hmodel : (Builder.afterAll {} (Builder.succeeding {} earlier)).model =
              (Builder.afterAll {} earlier).model.renumber
                (successes (Builder.answers {} earlier ++ [.ok root])) := by
            refine hmirrors.model.trans (Model.renumber_congr fun name number hnumber => ?_)
            have hle := (hsound.named name number hnumber).1
            rw [← hcount] at hle
            exact (successes_append_of_le hle _).symm
          have hnumber : successes (Builder.answers {} earlier ++ [.ok root])
              ((Builder.afterAll {} earlier).batches + 1 : Nat) =
                ((Builder.afterAll {} (Builder.succeeding {} earlier)).batches + 1 : Nat) := by
            rw [← hcount, successes_concat_ok, hmirrors.batches]
          have hagain := Builder.addBatch_renumber hadded hmodel hnumber
          refine ⟨?_, ?_⟩
          · rw [hmore, Builder.answers_append, hmirrors.answers, hanswers, List.filter_append,
              Builder.answers, hagain]
            rfl
          · rw [hmore, Builder.afterAll_append, hanswers, hafter]
            exact congrArg (fun added => added.2.model) hagain

/-- **Many calls more.** -/
theorem append (later : List Delivery) : Mirrors (earlier ++ later) := by
  induction later generalizing earlier with
  | nil => rwa [List.append_nil]
  | cons delivery rest ih =>
      have hnext := ih (hmirrors.concat delivery)
      rwa [List.append_assoc] at hnext

end Mirrors

namespace Builder

/-- **Failures leave no trace but a number.**  Take any calls on a new builder, some of which may
fail, and then the successful ones among them alone.  These all succeed again, with the same
roots, and lead to the same model, all orders included, except that a batch gets for its number
how many of the calls up to it succeeded.  A call that fails, on whatever builder, leaves the
model as it was and uses up one number. -/
theorem failures_leave_no_trace (deliveries : List Delivery) :
    answers {} (succeeding {} deliveries) = (answers {} deliveries).filter Except.isOk ∧
      (afterAll {} (succeeding {} deliveries)).model =
        (afterAll {} deliveries).model.renumber (successes (answers {} deliveries)) ∧
      ∀ (builder : Builder) (delivery : Delivery) (failure : BatchError),
        (builder.addBatch delivery.naming delivery.strict delivery.examples).1 = .error failure →
          (builder.addBatch delivery.naming delivery.strict delivery.examples).2 =
            { model := builder.model, batches := builder.batches + 1 } := by
  have hnone : Mirrors [] := ⟨rfl, rfl⟩
  have hmirrors : Mirrors deliveries := hnone.append deliveries
  refine ⟨hmirrors.answers, hmirrors.model, fun builder delivery failure hfailed => ?_⟩
  exact addBatch_error (Prod.ext hfailed rfl)

/-- Batches of which three fail: there is no name, a type of the first batch would change, and the
examples break off. -/
def mistakes : List Delivery :=
  [{ naming := {}, examples := { samples := [.object [("id", .scalar .number)]] } },
   { naming := { generator := some (.custom fun _ => .error "no name") }
     examples := { samples := [] } },
   { naming := {}, strict := true
     examples := { samples := [.object [("id", .scalar .undefined), ("tag", .object [])]] } },
   { naming := {}
     examples := { samples := [.object []], failure := some (.interrupted "no more") } },
   { naming := { root := some "Order" }, strict := true
     examples := { samples := [.object [("item", .object [])], .object []] } }]

/-- Five batches, three of which fail for different causes: the other two alone leave the same types
with smaller numbers. -/
theorem failures_leave_no_trace_mistakes :
    answers {} (succeeding {} mistakes) = [.ok "Root".toList, .ok "Order".toList] ∧
      (afterAll {} mistakes).model.named.entries =
        [("Root".toList, 1), ("Order".toList, 5), ("OrderItem".toList, 5)] ∧
      (afterAll {} (succeeding {} mistakes)).model.named.entries =
        [("Root".toList, 1), ("Order".toList, 2), ("OrderItem".toList, 2)] ∧
      (afterAll {} (mistakes.take 3)).model = (afterAll {} (mistakes.take 2)).model := by
  obtain ⟨hanswers, hmodel, hfailed⟩ := failures_leave_no_trace mistakes
  have hnumbered : ((afterAll {} mistakes).model.renumber
      (successes (answers {} mistakes))).named.entries =
        [("Root".toList, 1), ("Order".toList, 2), ("OrderItem".toList, 2)] := by decide +kernel
  have hrejected : ((afterAll {} (mistakes.take 2)).addBatch mistakes[2].naming mistakes[2].strict
      mistakes[2].examples).1.isOk = false := by decide +kernel
  have hkept : (afterAll {} (mistakes.take 3)).model = (afterAll {} (mistakes.take 2)).model := by
    have hsplit : mistakes.take 3 = mistakes.take 2 ++ [mistakes[2]] := rfl
    cases hanswer : ((afterAll {} (mistakes.take 2)).addBatch mistakes[2].naming
        mistakes[2].strict mistakes[2].examples).1 with
    | ok root =>
        rw [hanswer] at hrejected
        cases hrejected
    | error failure =>
        have hrefused := hfailed (afterAll {} (mistakes.take 2)) mistakes[2] failure hanswer
        rw [hsplit, afterAll_append, afterAll, List.foldl_cons, List.foldl_nil, hrefused]
  refine ⟨hanswers.trans rfl, by decide +kernel, ?_, hkept⟩
  rw [hmodel, hnumbered]

end Builder

end Exemplar
