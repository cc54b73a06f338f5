import LazyTensor.Kernel.Name
import LazyTensor.Proofs.Text.Separated

/-! Names of kernels can be read back. A name is a list of pieces without underscores between
underscores. The first three give the kind and the element type; the kind tells how many pieces
the sources take, and what is left is the argument. Each piece tells the numbers in it.
-/

namespace LazyTensor

open Text

namespace Kernel

/-- A shape without the underscore in front of it. -/
def dimsPiece (shape : Shape) : String := if shape.isEmpty then "s" else joined "x" shape

/-- Broadcast factors without the underscore in front of them. -/
def factorsPiece (factors : List Nat) : String := "f" ++ joined "x" factors

/-- Pieces with a text in front of the first one; the text alone if there is none. -/
def lead (text : String) : List String → List String
  | [] => [text]
  | piece :: pieces => (text ++ piece) :: pieces

/-- The numbers of a padding in the order in which a name lists them. -/
def paddingNumbers (pairs : List (Nat × Nat)) : List Nat :=
  pairs.flatMap fun (before, after) => [before, after]

/-- The pieces of a source. -/
def viewPieces (view : View) : List String := [dimsPiece view.shape, factorsPiece view.factors]

/-- The pieces of an argument. -/
def argumentPieces : Option Argument → List String
  | none => []
  | some (.seed word) => ["seed" ++ word.toNat.repr]
  | some (.value bits) => ["v" ++ hexadecimal 16 bits.toNat]
  | some (.axis dim) => ["d" ++ dim.repr]
  | some (.order axes) => lead "p" (axes.map Nat.repr)
  | some (.padding pairs) => lead "pad" ((paddingNumbers pairs).map Nat.repr)

/-- The pieces of the shape that a fill writes; other kinds have none. -/
def fillPieces : OpKind → Shape → List String
  | .fill _, shape => [dimsPiece shape]
  | _, _ => []

end Kernel

open Kernel

/-- All pieces of a task's kernel name. -/
def Task.namePieces (task : Task) : List String :=
  task.kind.family :: task.kind.name :: task.target.dtype.tag
    :: (fillPieces task.kind task.target.shape
      ++ (task.sources.map (·.layout.current)).flatMap viewPieces
      ++ argumentPieces task.operation.argument)

namespace Kernel

/-- Pieces, each behind an underscore. -/
def behind (pieces : List String) : String := String.join (pieces.map ("_" ++ ·))

theorem behind_text (text piece : String) : behind [text ++ piece] = "_" ++ text ++ piece := by
  simp [behind, String.append_assoc]

theorem behind_lead (text : String) (values : List Nat)
    : behind (lead text (values.map Nat.repr)) = "_" ++ text ++ joined "_" values := by
  cases values with
  | nil => simp [behind, lead, joined]
  | cons value rest =>
      simp only [behind, lead, List.map_cons, joined, intercalate_cons, String.join_cons,
        String.append_assoc]

theorem behind_cons (piece : String) (pieces : List String)
    : behind (piece :: pieces) = "_" ++ piece ++ behind pieces := by
  simp [behind]

theorem behind_append (left right : List String)
    : behind (left ++ right) = behind left ++ behind right := by
  rw [behind, List.map_append, String.join_append, behind, behind]

/-- The part of an argument is its pieces behind underscores. -/
theorem argumentPart_eq (argument : Option Argument)
    : argumentPart argument = behind (argumentPieces argument) := by
  match argument with
  | none => rfl
  | some (.seed word) => exact (behind_text "seed" _).symm
  | some (.value bits) => exact (behind_text "v" _).symm
  | some (.axis dim) => exact (behind_text "d" _).symm
  | some (.order axes) => exact (behind_lead "p" axes).symm
  | some (.padding pairs) => exact (behind_lead "pad" (paddingNumbers pairs)).symm

theorem dimsPart_eq (shape : Shape) : dimsPart shape = behind [dimsPiece shape] := by
  simp [dimsPart, behind, dimsPiece]

theorem sourcePart_eq (layout : Layout)
    : sourcePart layout = behind (viewPieces layout.current) := by
  have factors := behind_text "f" (joined "x" layout.factors)
  rw [sourcePart, dimsPart_eq, String.append_assoc]
  exact (congrArg _ factors.symm).trans (behind_append _ _).symm

/-- The parts of all sources are their pieces behind underscores, by induction on the sources. -/
theorem join_sourcePart (sources : List Buffer)
    : String.join (sources.map fun source => sourcePart source.layout)
      = behind ((sources.map (·.layout.current)).flatMap viewPieces) := by
  induction sources with
  | nil => rfl
  | cons source rest ih =>
      rw [List.map_cons, String.join_cons, ih, sourcePart_eq, ← behind_append]
      rfl

end Kernel

/-- A kernel name is its pieces between underscores. -/
theorem Task.kernelName_eq (task : Task) : task.kernelName = "_".intercalate task.namePieces := by
  rw [kernelName, namePieces, intercalate_cons, ← behind, behind_cons, behind_cons, behind_append,
    behind_append, join_sourcePart, argumentPart_eq]
  cases task.kind with
  | fill op => simp only [dimsPart_eq, fillPieces, String.append_assoc]
  | _ => simp only [fillPieces, behind, List.map_nil, String.join_nil, String.append_empty,
      String.empty_append, String.append_assoc]

-----------------------------------------------------------------------------------------
-- Pieces are found again in a name
-----------------------------------------------------------------------------------------

namespace Kernel

theorem notMem_dimsPiece {char : Char} (mark : char.isAlphanum = false) (shape : Shape)
    : char ∉ (dimsPiece shape).toList := by
  rw [dimsPiece]
  split
  · exact notMem_alphanumeric mark (by decide)
  · exact notMem_joined_of_mark mark shape

theorem notMem_factorsPiece {char : Char} (mark : char.isAlphanum = false) (factors : List Nat)
    : char ∉ (factorsPiece factors).toList := by
  rw [factorsPiece, String.toList_append, List.mem_append, not_or]
  exact ⟨notMem_alphanumeric mark (by decide), notMem_joined_of_mark mark factors⟩

/-- No mark is within the pieces of an argument. -/
theorem notMem_argumentPieces {char : Char} (mark : char.isAlphanum = false)
    (argument : Option Argument)
    : ∀ piece ∈ argumentPieces argument, char ∉ piece.toList := by
  have led {text : String} (plain : text.toList.all Char.isAlphanum = true) (values : List Nat)
      : ∀ piece ∈ lead text (values.map Nat.repr), char ∉ piece.toList := by
    cases values with
    | nil => exact List.forall_mem_singleton.mpr (notMem_alphanumeric mark plain)
    | cons value rest =>
        simp only [lead, List.map_cons, List.forall_mem_cons, List.forall_mem_map]
        exact ⟨notMem_append_repr mark plain value,
          fun number _ => notMem_repr (isDigit_of_mark mark) number⟩
  match argument with
  | none => simp [argumentPieces]
  | some (.seed word) =>
      exact List.forall_mem_singleton.mpr (notMem_append_repr mark (by decide) _)
  | some (.value bits) =>
      refine List.forall_mem_singleton.mpr ?_
      rw [String.toList_append, List.mem_append, not_or]
      exact ⟨notMem_alphanumeric mark (by decide), notMem_hexadecimal_of_mark mark 16 _⟩
  | some (.axis dim) =>
      exact List.forall_mem_singleton.mpr (notMem_append_repr mark (by decide) _)
  | some (.order axes) => exact led (by decide) axes
  | some (.padding pairs) => exact led (by decide) (paddingNumbers pairs)

/-- The letter of a scalar is not the piece of a shape with dimensions. -/
theorem dimsPiece_cons_ne (extent : Nat) (inner : Shape) : dimsPiece (extent :: inner) ≠ "s" := by
  intro same
  have digit : 's'.isDigit = false := by decide
  have absent := notMem_joined 'x' digit (by decide) (extent :: inner)
  have letter : joined "x" (extent :: inner) = "s" := same
  rw [show String.singleton 'x' = "x" from rfl, letter] at absent
  exact absent (by decide)

/-- A shape is found again in its piece. -/
theorem dimsPiece_injective : Function.Injective dimsPiece := by
  intro left right same
  cases left with
  | nil =>
      cases right with
      | nil => rfl
      | cons extent inner => exact absurd same.symm (dimsPiece_cons_ne extent inner)
  | cons extent inner =>
      cases right with
      | nil => exact absurd same (dimsPiece_cons_ne extent inner)
      | cons _ _ =>
          have digit : 'x'.isDigit = false := by decide
          exact joined_injective digit same

theorem factorsPiece_injective : Function.Injective factorsPiece := by
  intro left right same
  have digit : 'x'.isDigit = false := by decide
  exact joined_injective digit ((String.append_right_inj _).mp same)

/-- The views of all sources are found again in their pieces, by induction on the views. -/
theorem flatMap_viewPieces_injective {left right : List View}
    (same : left.flatMap viewPieces = right.flatMap viewPieces)
    : left = right := by
  induction left generalizing right with
  | nil =>
      cases right with
      | nil => rfl
      | cons view rest => cases same
  | cons view rest ih =>
      cases right with
      | nil => cases same
      | cons view' rest' =>
          obtain ⟨dims, others⟩ := List.cons.inj same
          obtain ⟨factors, others⟩ := List.cons.inj others
          have shape : view.shape = view'.shape := dimsPiece_injective dims
          have factors : view.factors = view'.factors := factorsPiece_injective factors
          have first : view = view' := by
            cases view
            cases view'
            cases shape
            cases factors
            rfl
          rw [ih others, first]

/-- The numbers behind a text are found again. -/
theorem lead_injective {text : String} {left right : List Nat}
    (same : lead text (left.map Nat.repr) = lead text (right.map Nat.repr))
    : left = right := by
  have longer (value : Nat) (rest : List String)
      : lead text (value.repr :: rest) ≠ lead text [] := by
    intro same
    have first := (List.cons.inj same).1
    rw [String.append_eq_left_iff] at first
    exact Nat.repr_ne_empty first
  cases left with
  | nil =>
      cases right with
      | nil => rfl
      | cons value rest => exact absurd same.symm (longer value _)
  | cons value rest =>
      cases right with
      | nil => exact absurd same (longer value _)
      | cons value' rest' =>
          obtain ⟨first, others⟩ := List.cons.inj same
          rw [repr_injective ((String.append_right_inj text).mp first),
            List.map_injective_iff.mpr repr_injective others]

/-- The pairs of a padding are found again in the list of their numbers, by induction on them. -/
theorem paddingNumbers_injective {left right : List (Nat × Nat)}
    (same : paddingNumbers left = paddingNumbers right)
    : left = right := by
  induction left generalizing right with
  | nil =>
      cases right with
      | nil => rfl
      | cons pair rest => cases same
  | cons pair rest ih =>
      cases right with
      | nil => cases same
      | cons pair' rest' =>
          obtain ⟨before, others⟩ := List.cons.inj same
          obtain ⟨after, others⟩ := List.cons.inj others
          rw [ih others, Prod.ext before after]

end Kernel

-----------------------------------------------------------------------------------------
-- What a name tells
-----------------------------------------------------------------------------------------

/-- The arguments that a kind with a kernel takes. -/
inductive OpKind.Takes : OpKind → Option Argument → Prop
  | empty : Takes (.fill .empty) none
  | constant (bits : UInt64) : Takes (.fill .constant) (some (.value bits))
  | random (seed : UInt64) : Takes (.fill .random) (some (.seed seed))
  | unary (op : UnaryMap) : Takes (.unary op) none
  | binary (op : BinaryMap) : Takes (.binary op) none
  | reduce (op : Reduction) (axis : Nat) : Takes (.reduce op) (some (.axis axis))
  | permute (order : List Nat) : Takes (.movement .permute) (some (.order order))
  | pad (padding : List (Nat × Nat)) : Takes (.movement .pad) (some (.padding padding))

/-- An argument that a kind takes is found again in its pieces. -/
theorem OpKind.Takes.argument_eq {kind : OpKind} {left right : Option Argument}
    (leftTaken : kind.Takes left) (rightTaken : kind.Takes right)
    (same : argumentPieces left = argumentPieces right)
    : left = right := by
  cases leftTaken with
  | empty => cases rightTaken with | empty => rfl
  | unary op => cases rightTaken with | unary => rfl
  | binary op => cases rightTaken with | binary => rfl
  | constant bits =>
      cases rightTaken with
      | constant bits' =>
          have digits := (String.append_right_inj _).mp (List.cons.inj same).1
          rw [UInt64.toNat_inj.mp (hexadecimal_injective 16 digits)]
  | random seed =>
      cases rightTaken with
      | random seed' =>
          have digits := (String.append_right_inj _).mp (List.cons.inj same).1
          rw [UInt64.toNat_inj.mp (repr_injective digits)]
  | reduce op axis =>
      cases rightTaken with
      | reduce _ axis' =>
          rw [repr_injective ((String.append_right_inj _).mp (List.cons.inj same).1)]
  | permute order =>
      cases rightTaken with
      | permute order' => rw [lead_injective same]
  | pad padding =>
      cases rightTaken with
      | pad padding' => rw [paddingNumbers_injective (lead_injective same)]

/-- Two tasks agree in the kind of the operation, the element type, the shape and the broadcast
factors of every source, the shape that a fill writes, and the argument.
-/
structure Task.SameKernel (left right : Task) : Prop where
  kind : left.kind = right.kind
  dtype : left.target.dtype = right.target.dtype
  views : left.sources.map (·.layout.current) = right.sources.map (·.layout.current)
  filled : left.kind.fill?.isSome = true → left.target.shape = right.target.shape
  argument : left.operation.argument = right.operation.argument

/-- Tasks that agree have kernels of one name. -/
theorem Task.SameKernel.kernelName_eq {left right : Task} (same : left.SameKernel right)
    : left.kernelName = right.kernelName := by
  have filled
      : fillPieces left.kind left.target.shape = fillPieces right.kind right.target.shape := by
    have shapes := same.filled
    rw [← same.kind]
    revert shapes
    cases left.kind with
    | fill op => exact fun shapes => congrArg (fun shape => [dimsPiece shape]) (shapes rfl)
    | _ => exact fun _ => rfl
  rw [Task.kernelName_eq, Task.kernelName_eq, namePieces, namePieces, filled, same.kind,
    same.dtype, same.views, same.argument]

theorem OpKind.mem_all (kind : OpKind) : kind ∈ OpKind.all := by
  rcases kind with op | op | op | op | op <;> cases op <;> decide

/-- Kinds with the same family and the same name within it are equal. -/
theorem OpKind.eq_of_names {left right : OpKind} (family : left.family = right.family)
    (name : left.name = right.name)
    : left = right := by
  have all
      : ∀ kind ∈ OpKind.all, ∀ other ∈ OpKind.all,
          kind.family = other.family → kind.name = other.name → kind = other := by
    decide
  exact all left left.mem_all right right.mem_all family name

theorem DType.tag_injective : Function.Injective DType.tag := by
  intro left right same
  cases left <;> cases right
  · rfl
  · exact absurd same (by decide)
  · exact absurd same (by decide)
  · rfl

/-- No mark is within a piece of a name. -/
theorem Task.notMem_namePieces (task : Task) {char : Char} (mark : char.isAlphanum = false)
    : ∀ piece ∈ task.namePieces, char ∉ piece.toList := by
  have kinds
      : ∀ kind ∈ OpKind.all,
          kind.family.toList.all Char.isAlphanum = true
          ∧ kind.name.toList.all Char.isAlphanum = true := by
    decide
  obtain ⟨family, name⟩ := kinds task.kind task.kind.mem_all
  have tag : task.target.dtype.tag.toList.all Char.isAlphanum = true := by
    cases task.target.dtype <;> decide
  have filled : ∀ piece ∈ fillPieces task.kind task.target.shape, char ∉ piece.toList := by
    cases task.kind with
    | fill op => exact List.forall_mem_singleton.mpr (notMem_dimsPiece mark _)
    | _ => exact List.forall_mem_nil _
  have views
      : ∀ piece ∈ (task.sources.map (·.layout.current)).flatMap viewPieces,
          char ∉ piece.toList := by
    intro piece member
    obtain ⟨view, _, inside⟩ := List.mem_flatMap.mp member
    simp only [viewPieces, List.mem_cons, List.not_mem_nil, or_false] at inside
    rcases inside with rfl | rfl
    · exact notMem_dimsPiece mark _
    · exact notMem_factorsPiece mark _
  simp only [namePieces, List.forall_mem_cons, List.forall_mem_append]
  exact ⟨notMem_alphanumeric mark family, notMem_alphanumeric mark name,
    notMem_alphanumeric mark tag, ⟨filled, views⟩, notMem_argumentPieces mark _⟩

/-- A kernel name contains no mark but the underscore. -/
theorem Task.notMem_kernelName (task : Task) {char : Char} (mark : char.isAlphanum = false)
    (other : char ≠ '_')
    : char ∉ task.kernelName.toList := by
  rw [kernelName_eq]
  exact notMem_intercalate (by simpa using other) (task.notMem_namePieces mark)

/-- The pieces of two views are as many as those of two others, by induction on the views. -/
theorem Kernel.length_flatMap_viewPieces (views : List View)
    : (views.flatMap viewPieces).length = 2 * views.length := by
  induction views with
  | nil => rfl
  | cons view rest ih =>
      rw [List.flatMap_cons, List.length_append, ih, List.length_cons, Nat.mul_succ, Nat.add_comm]
      rfl

/-- Tasks with kernels of one name agree, if their kinds take their sources and arguments. The
first pieces give the kind, and the kind tells where the pieces of the argument start.
-/
theorem Task.sameKernel_of_kernelName_eq {left right : Task}
    (leftArity : left.sources.length = left.kind.arity)
    (rightArity : right.sources.length = right.kind.arity)
    (leftTakes : left.kind.Takes left.operation.argument)
    (rightTakes : right.kind.Takes right.operation.argument)
    (same : left.kernelName = right.kernelName)
    : left.SameKernel right := by
  have pieces : left.namePieces = right.namePieces := by
    rw [Task.kernelName_eq, Task.kernelName_eq] at same
    exact eq_of_intercalate_eq '_' (left.notMem_namePieces (by decide))
      (right.notMem_namePieces (by decide)) (List.cons_ne_nil _ _) (List.cons_ne_nil _ _) same
  obtain ⟨family, pieces⟩ := List.cons.inj pieces
  obtain ⟨name, pieces⟩ := List.cons.inj pieces
  obtain ⟨tag, pieces⟩ := List.cons.inj pieces
  have kind : left.kind = right.kind := OpKind.eq_of_names family name
  have filledLength
      : (fillPieces left.kind left.target.shape).length
        = (fillPieces right.kind right.target.shape).length := by
    rw [← kind]
    cases left.kind <;> rfl
  have count
      : (left.sources.map (·.layout.current)).length
        = (right.sources.map (·.layout.current)).length := by
    rw [List.length_map, List.length_map, leftArity, rightArity, kind]
  -- The kind fixes how many pieces stand in front of those of the argument.
  obtain ⟨front, arguments⟩ := List.append_inj pieces (by
    rw [List.length_append, List.length_append, filledLength, length_flatMap_viewPieces,
      length_flatMap_viewPieces, count])
  obtain ⟨filled, views⟩ := List.append_inj front filledLength
  refine ⟨kind, DType.tag_injective tag, flatMap_viewPieces_injective views, ?_, ?_⟩
  · intro fills
    rw [← kind] at filled
    revert fills filled
    cases left.kind with
    | fill op => exact fun filled _ => dimsPiece_injective (List.cons.inj filled).1
    | _ => exact fun _ fills => absurd fills (by simp [OpKind.fill?])
  · exact leftTakes.argument_eq (kind ▸ rightTakes) arguments

end LazyTensor
