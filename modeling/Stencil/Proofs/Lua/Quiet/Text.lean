import Stencil.Lua.Library
import Stencil.Proofs.Lua.Quiet

/-!
# Functions on texts write nothing

* `Strings.findOrMatch_quiet`, `Strings.gsub_quiet`, and the like: the library `string`;
* `Packing.pack_quiet`, `unpack_quiet`: packed values;
* `Unicode.char_quiet`, and the like: the library `utf8`.
-/

namespace Stencil.Lua

variable {α : Type}

/-! ## Strings -/

instance Strings.len_quiet (vs : List Value) : (Strings.len vs).Quiet := by
  unfold Strings.len
  infer_instance

instance Strings.sub_quiet (vs : List Value) : (Strings.sub vs).Quiet := by
  unfold Strings.sub
  infer_instance

instance Strings.mapBytes_quiet (f : UInt8 → UInt8) (vs : List Value) :
    (Strings.mapBytes f vs).Quiet := by
  unfold Strings.mapBytes
  infer_instance

instance Strings.reverse_quiet (vs : List Value) : (Strings.reverse vs).Quiet := by
  unfold Strings.reverse
  infer_instance

instance Strings.rep_quiet (vs : List Value) : (Strings.rep vs).Quiet := by
  unfold Strings.rep
  infer_instance

instance Strings.byte_quiet (vs : List Value) : (Strings.byte vs).Quiet := by
  unfold Strings.byte
  infer_instance

instance Strings.bytesFrom_quiet (vs : List Value) (fuel i : Nat) :
    (Strings.bytesFrom vs fuel i).Quiet := by
  induction fuel generalizing i with
  | zero =>
    unfold Strings.bytesFrom
    infer_instance
  | succ fuel ih =>
    unfold Strings.bytesFrom
    infer_instance

instance Strings.char_quiet (vs : List Value) : (Strings.char vs).Quiet := by
  unfold Strings.char
  infer_instance

instance Strings.captureValue_quiet (s : Bytes) (x : Pattern.Capture) :
    (Strings.captureValue s x).Quiet := by
  unfold Strings.captureValue
  split <;> infer_instance

instance Strings.captureValues_quiet (s : Bytes) (x : List Pattern.Capture) :
    (Strings.captureValues s x).Quiet := by
  induction x with
  | nil =>
    unfold Strings.captureValues
    infer_instance
  | cons v x ih =>
    unfold Strings.captureValues
    infer_instance

instance Strings.matchValues_quiet (s : Bytes) (start stop : Nat) (cs : Pattern.Captures) :
    (Strings.matchValues s start stop cs).Quiet := by
  unfold Strings.matchValues
  infer_instance

instance Strings.settle_quiet (x : Except String α) :
    Run.Quiet (Strings.settle x : Run α) := by
  unfold Strings.settle
  split <;> infer_instance

instance Strings.findOrMatch_quiet (find : Bool) (vs : List Value) :
    (Strings.findOrMatch find vs).Quiet := by
  unfold Strings.findOrMatch
  refine .bind inferInstance fun _ => .bind inferInstance fun _ => .bind inferInstance fun _ => ?_
  extract_lets first
  clear_value first
  split
  · infer_instance
  · split
    · split <;> infer_instance
    · refine .bind inferInstance fun _ => ?_
      split <;> infer_instance

instance Strings.gmatch_quiet (vs : List Value) : (Strings.gmatch vs).Quiet := by
  unfold Strings.gmatch
  refine .bind inferInstance fun _ => .bind inferInstance fun _ => .bind inferInstance fun _ => ?_
  extract_lets first
  clear_value first
  refine .bind (.modifyGet fun _ => rfl) fun _ => ?_
  infer_instance

instance Strings.gmatchStep_quiet (place : Nat) (s p : Bytes) (position : Nat)
    (lastEnd : Option Nat) :
    (Strings.gmatchStep place s p position lastEnd).Quiet := by
  unfold Strings.gmatchStep
  extract_lets items
  clear_value items
  refine .bind inferInstance fun _ => ?_
  split
  · infer_instance
  · refine .bind (.modify fun _ => rfl) fun _ => ?_
    infer_instance

instance Strings.captureText_quiet (s : Bytes) (start stop : Nat) (cs : Pattern.Captures)
    (index : Nat) :
    (Strings.captureText s start stop cs index).Quiet := by
  unfold Strings.captureText
  split
  · refine .bind inferInstance fun _ => ?_
    split <;> infer_instance
  · infer_instance

instance Strings.expand_quiet (s : Bytes) (start stop : Nat) (cs : Pattern.Captures)
    (template : List UInt8) (out : Bytes) :
    (Strings.expand s start stop cs template out).Quiet := by
  fun_induction Strings.expand s start stop cs template out <;> infer_instance

instance Strings.replacement_quiet (s : Bytes) (substitute : Value) (start stop : Nat)
    (cs : Pattern.Captures) : (Strings.replacement s substitute start stop cs).Quiet := by
  unfold Strings.replacement
  split
  · infer_instance
  · extract_lets settle
    have hsettle (v : Value) : (settle v).Quiet := by
      dsimp only [settle]
      split
      · infer_instance
      · split <;> infer_instance
    split <;> infer_instance

instance Strings.replaceFrom_quiet (s : Bytes) (p : Pattern.Compiled) (substitute : Value)
    (limit fuel i : Nat) (x : Option Nat) (j : Nat) (text : Bytes) :
    (Strings.replaceFrom s p substitute limit fuel i x j text).Quiet := by
  induction fuel generalizing i x j text with
  | zero =>
    unfold Strings.replaceFrom
    infer_instance
  | succ fuel ih =>
    unfold Strings.replaceFrom
    split
    · infer_instance
    · refine .bind inferInstance fun _ => ?_
      extract_lets found
      clear_value found
      split
      · infer_instance
      · split <;> infer_instance

instance Strings.gsub_quiet (vs : List Value) : (Strings.gsub vs).Quiet := by
  unfold Strings.gsub
  infer_instance

instance Strings.refuseConversion_quiet (spelling : List UInt8) :
    Run.Quiet (Strings.refuseConversion spelling : Run α) := by
  unfold Strings.refuseConversion
  infer_instance

instance Strings.layout_quiet (flags : List UInt8) (precise : Bool) (marks : List UInt8)
    (letter : UInt8) :
    (Strings.layout flags precise marks letter).Quiet := by
  unfold Strings.layout
  split <;> infer_instance

instance Strings.literal_quiet (n : Nat) (vs : List Value) : (Strings.literal n vs).Quiet := by
  unfold Strings.literal
  split <;> infer_instance

instance Strings.convert_quiet (letter : UInt8) (marks : List UInt8) (n : Nat) (vs : List Value) :
    (Strings.convert letter marks n vs).Quiet := by
  unfold Strings.convert
  extract_lets float unsigned
  split <;> infer_instance

instance Strings.formatFrom_quiet (vs : List Value) (fuel : Nat) (template : List UInt8) (n : Nat)
    (out : Bytes) : (Strings.formatFrom vs fuel template n out).Quiet := by
  fun_induction Strings.formatFrom vs fuel template n out <;> infer_instance

instance Strings.format_quiet (vs : List Value) : (Strings.format vs).Quiet := by
  unfold Strings.format
  infer_instance

instance Strings.operator_quiet (op : BinaryOp) (event : String) (vs : List Value) :
    (Strings.operator op event vs).Quiet := by
  unfold Strings.operator
  extract_lets a b
  clear_value a b
  split
  · infer_instance
  · refine .bind inferInstance fun _ => ?_
    extract_lets handler
    clear_value handler
    split <;> infer_instance

instance Strings.negative_quiet (vs : List Value) : (Strings.negative vs).Quiet := by
  unfold Strings.negative
  split <;> infer_instance

instance Strings.dump_quiet (vs : List Value) : (Strings.dump vs).Quiet := by
  unfold Strings.dump
  refine .bind inferInstance fun _ => .bind inferInstance fun _ => ?_
  extract_lets bytes
  clear_value bytes
  split <;> infer_instance

/-! ## Packed values -/

instance Packing.readSize_quiet (p : Packing.Plan) (otherwise : Nat) :
    (Packing.readSize p otherwise).Quiet := by
  unfold Packing.readSize
  infer_instance

instance Packing.readOption_quiet (letter : UInt8) (p : Packing.Plan) :
    (Packing.readOption letter p).Quiet := by
  unfold Packing.readOption
  split
  · infer_instance
  · infer_instance
  · infer_instance
  · infer_instance
  · infer_instance
  · infer_instance
  · infer_instance
  · infer_instance
  · infer_instance
  · infer_instance
  · infer_instance
  · infer_instance
  · infer_instance
  · infer_instance
  · infer_instance
  · split <;> infer_instance
  · infer_instance
  · infer_instance
  · infer_instance
  · infer_instance
  · infer_instance
  · infer_instance
  · infer_instance
  · infer_instance
  · infer_instance

instance Packing.readAligned_quiet (total : Nat) (letter : UInt8) (p : Packing.Plan) :
    (Packing.readAligned total letter p).Quiet := by
  unfold Packing.readAligned
  refine .bind inferInstance fun _ => ?_
  split
  · extract_lets __do_jp
    split
    · split <;> infer_instance
    · infer_instance

instance Packing.packValue_quiet (p : Packing.Plan) (kind : Packing.Kind) (size n : Nat)
    (vs : List Value) :
    (Packing.packValue p kind size n vs).Quiet := by
  unfold Packing.packValue
  split <;> infer_instance

instance Packing.packFrom_quiet (vs : List Value) (fuel : Nat) (x : Packing.Plan) (i : Nat)
    (text : Bytes) :
    (Packing.packFrom vs fuel x i text).Quiet := by
  induction fuel generalizing x i text with
  | zero =>
    unfold Packing.packFrom
    infer_instance
  | succ fuel ih =>
    unfold Packing.packFrom
    split <;> infer_instance

instance Packing.pack_quiet (vs : List Value) : (Packing.pack vs).Quiet := by
  unfold Packing.pack
  infer_instance

instance Packing.sizeFrom_quiet (fuel : Nat) (x : Packing.Plan) (i : Nat) :
    (Packing.sizeFrom fuel x i).Quiet := by
  induction fuel generalizing x i with
  | zero =>
    unfold Packing.sizeFrom
    infer_instance
  | succ fuel ih =>
    unfold Packing.sizeFrom
    split <;> infer_instance

instance Packing.packsize_quiet (vs : List Value) : (Packing.packsize vs).Quiet := by
  unfold Packing.packsize
  infer_instance

instance Packing.unpackInteger_quiet (size : Nat) (isSigned : Bool) (n : Nat) :
    (Packing.unpackInteger size isSigned n).Quiet := by
  unfold Packing.unpackInteger
  infer_instance

instance Packing.unpackValue_quiet (b : Bytes) (p : Packing.Plan) (kind : Packing.Kind)
    (size i : Nat) :
    (Packing.unpackValue b p kind size i).Quiet := by
  unfold Packing.unpackValue
  extract_lets bits text
  clear_value bits text
  split <;> infer_instance

instance Packing.unpackFrom_quiet (b : Bytes) (fuel : Nat) (x : Packing.Plan) (i : Nat) :
    (Packing.unpackFrom b fuel x i).Quiet := by
  induction fuel generalizing x i with
  | zero =>
    unfold Packing.unpackFrom
    infer_instance
  | succ fuel ih =>
    unfold Packing.unpackFrom
    split <;> infer_instance

instance Packing.unpack_quiet (vs : List Value) : (Packing.unpack vs).Quiet := by
  unfold Packing.unpack
  infer_instance

/-! ## Code points -/

instance Unicode.encodeFrom_quiet (vs : List Value) (fuel i : Nat) :
    (Unicode.encodeFrom vs fuel i).Quiet := by
  induction fuel generalizing i with
  | zero =>
    unfold Unicode.encodeFrom
    infer_instance
  | succ fuel ih =>
    unfold Unicode.encodeFrom
    infer_instance

instance Unicode.char_quiet (vs : List Value) : (Unicode.char vs).Quiet := by
  unfold Unicode.char
  infer_instance

instance Unicode.codepoint_quiet (vs : List Value) : (Unicode.codepoint vs).Quiet := by
  unfold Unicode.codepoint
  refine .bind inferInstance fun _ => .bind inferInstance fun _ => ?_
  extract_lets first lax
  clear_value first lax
  refine .bind inferInstance fun _ => ?_
  extract_lets last
  clear_value last
  refine .bind inferInstance fun _ => .bind inferInstance fun _ => ?_
  split
  · infer_instance
  · split <;> infer_instance

instance Unicode.len_quiet (vs : List Value) : (Unicode.len vs).Quiet := by
  unfold Unicode.len
  refine .bind inferInstance fun _ => .bind inferInstance fun _ => ?_
  extract_lets first lax
  clear_value first lax
  refine .bind inferInstance fun _ => ?_
  extract_lets last
  clear_value last
  refine .bind inferInstance fun _ => .bind inferInstance fun _ => ?_
  split <;> infer_instance

instance Unicode.offset_quiet (vs : List Value) : (Unicode.offset vs).Quiet := by
  unfold Unicode.offset
  infer_instance

instance Unicode.codes_quiet (vs : List Value) : (Unicode.codes vs).Quiet := by
  unfold Unicode.codes
  infer_instance

instance Unicode.codesStep_quiet (strict : Bool) (vs : List Value) :
    (Unicode.codesStep strict vs).Quiet := by
  unfold Unicode.codesStep
  refine .bind inferInstance fun s => ?_
  extract_lets n m i
  clear_value n m i
  split
  · infer_instance
  · split
    · infer_instance
    · split <;> infer_instance

end Stencil.Lua
