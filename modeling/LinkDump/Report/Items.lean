/-! # Items
A sequence of items is what reading to the end gives one by one: values, and errors in their places.
A report takes the values up to the first error. -/

namespace LinkDump

/-- The values of a sequence of items up to the first error, and that error. -/
def cutAtError {ε α : Type} : List (Except ε α) → List α × Option ε
  | [] => ([], none)
  | .error e :: _ => ([], some e)
  | .ok a :: items => (a :: (cutAtError items).1, (cutAtError items).2)

@[simp] theorem cutAtError_nil {ε α : Type} :
    cutAtError ([] : List (Except ε α)) = ([], none) := rfl

/-- Nothing comes before an error in front. -/
@[simp] theorem cutAtError_error {ε α : Type} (e : ε) (items : List (Except ε α)) :
    cutAtError (.error e :: items) = ([], some e) := rfl

/-- Values alone are not cut. -/
@[simp] theorem cutAtError_map_ok {ε α : Type} (values : List α) :
    cutAtError (values.map (fun a => (.ok a : Except ε α))) = (values, none) := by
  induction values with
  | nil => rfl
  | cons a values ih => simp [cutAtError, ih]

/-- Values are cut at the error behind them, whatever follows it. -/
@[simp] theorem cutAtError_map_ok_append_error {ε α : Type} (values : List α) (e : ε)
    (items : List (Except ε α)) :
    cutAtError (values.map (fun a => (.ok a : Except ε α)) ++ .error e :: items) =
      (values, some e) := by
  induction values with
  | nil => rfl
  | cons a values ih => simp [cutAtError, ih]

/-- Changing the values does not change where the first error is. -/
theorem cutAtError_map {ε α β : Type} (f : α → β) (items : List (Except ε α)) :
    cutAtError (items.map (Except.map f)) = ((cutAtError items).1.map f, (cutAtError items).2) := by
  induction items with
  | nil => rfl
  | cons item items ih =>
    cases item with
    | error e => rfl
    | ok a => simp [cutAtError, Except.map, ih]

end LinkDump
