import FluxGuard.Model.Checkpoint
import FluxGuard.Proof.Json

/-!
# What a checkpoint holds after a crash

* `loadCheckpoint_saved`: a whole file loads as the blocks it was written for.
* `loadCheckpoint_piece`: a proper piece of it loads as no blocks.
* `saveCheckpoint_spec`: after `save_checkpoint`, finished or not, the file is the old one or
  a piece of the new one.
* `killed_save_iff`: what a save that is killed leaves is what the brain's world says of it (`Remains`).
* `crash_atomic_iff`: so a crash can lose every block, unless there is none to lose.
-/

namespace FluxGuard.Checkpoint

open Proc

variable {ofStr : PyStr → Option PyFloat}

theorem ofChar_injective : Function.Injective CodePoint.ofChar := fun a b h => by
  have hval : (CodePoint.ofChar a).val = (CodePoint.ofChar b).val := congrArg Fin.val h
  exact Char.toNat_inj.1 hval

/-- The dict read back has every address once. -/
theorem nodup_pyItems (blocks : Dict Text PyFloat) : ((pyItems blocks.items).map Prod.fst).Nodup := by
  have hkeys : (pyItems blocks.items).map Prod.fst = (blocks.items.map Prod.fst).map (List.map CodePoint.ofChar) := by
    unfold pyItems
    rw [List.map_map, List.map_map]
    rfl
  rw [hkeys]
  exact blocks.nodup.map (List.map_injective_iff.2 ofChar_injective)

/-- The blocks that the brain tracks, as Python has them. -/
def pyBlocks (blocks : Dict Text PyFloat) : Dict PyStr PyFloat := ⟨pyItems blocks.items, nodup_pyItems blocks⟩

/-- The bytes that `save_checkpoint` writes. -/
def saved (blocks : Dict Text PyFloat) : List UInt8 := encodeUtf8 (dumpsItems (pyItems blocks.items))

/-! ## Loading -/

/-- The items as they are written are the items as they are read. -/
theorem readBlocks_floatItems (blocks : Dict Text PyFloat) :
    readBlocks ofStr (.obj (floatItems blocks.items)) = some (pyBlocks blocks) := by
  have hkeys : (floatItems blocks.items).map Prod.fst = (pyItems blocks.items).map Prod.fst := by
    unfold floatItems pyItems
    rw [List.map_map, List.map_map]
    rfl
  have hnodup := nodup_pyItems blocks
  have hitems : (Dict.ofItems (floatItems blocks.items)).items = floatItems blocks.items :=
    Dict.items_ofItems (hkeys ▸ hnodup)
  have hread : (floatItems blocks.items).mapM (fun m => (pyFloat ofStr m.2).map fun x => (m.1, x)) =
      some (pyItems blocks.items) := by
    unfold floatItems pyItems
    induction blocks.items with
    | nil => rfl
    | cons m ms ih => rw [List.map_cons, List.mapM_cons, ih]; rfl
  simp only [readBlocks, hitems, hread]
  exact congrArg some (Dict.ext_items (Dict.items_ofItems hnodup))

/-- **A whole file loads as its blocks.** -/
theorem loadCheckpoint_saved (blocks : Dict Text PyFloat) :
    loadCheckpoint ofStr (some (saved blocks)) = pyBlocks blocks := by
  unfold loadCheckpoint saved
  simp only [decodeUtf8_encodeUtf8, Option.bind_some, loads_dumpsItems, readBlocks_floatItems, Option.getD_some]

/-- **A proper piece of a file loads as no blocks.** -/
theorem loadCheckpoint_piece {blocks : Dict Text PyFloat} {bytes : List UInt8} (hp : bytes <+: saved blocks)
    (hne : bytes ≠ saved blocks) : loadCheckpoint ofStr (some bytes) = Dict.empty := by
  have hnone : (decodeUtf8 bytes).bind loads = none := by
    -- a piece that ends inside a character is no text; another one is a proper prefix
    cases h : decodeUtf8 bytes with
    | none => rfl
    | some p =>
      have hcut : p ≠ dumpsItems (pyItems blocks.items) := by
        rintro rfl
        exact hne (encodeUtf8_of_decodeUtf8 h).symm
      exact loads_prefix blocks.items (prefix_of_decodeUtf8 hp h) hcut
  unfold loadCheckpoint
  simp only [hnone]
  rfl

/-! ## Saving -/

/-- The file holds the bytes before `left`. -/
def Written (bytes left : List UInt8) (f : File) : Prop := ∃ done, f = some done ∧ done ++ left = bytes

/-- The file holds a piece of the bytes. -/
def Piece (bytes : List UInt8) (f : File) : Prop := ∃ done, f = some done ∧ done <+: bytes

variable {bytes left : List UInt8}

/-- What is written up to now is a piece of the whole. -/
theorem Written.piece {f : File} (h : Written bytes left f) : Piece bytes f := by
  obtain ⟨done, hf, hdone⟩ := h
  exact ⟨done, hf, left, hdone⟩

/-- One chunk more is written. -/
theorem append_spec (n : ℕ) {C : File → Prop} :
    Triple (Written bytes left) (append (left.take n)) (fun _ => Written bytes (left.drop n)) C := by
  rintro f ⟨done, rfl, hdone⟩
  exact ⟨done ++ left.take n, rfl, by rw [List.append_assoc, List.take_append_drop, hdone]⟩

/-- A dump writes the whole, or is cut off at a piece of it. -/
theorem dump_spec (ws : List Write) (left : List UInt8) :
    Triple (Written bytes left) (dump ws left) (fun r => Written bytes r.1) (Piece bytes) := by
  -- by induction on the writes; what is left shrinks with each
  induction ws generalizing left with
  | nil => exact Triple.pure fun _ h => h
  | cons w ws ih =>
    refine (append_spec w.count).bind fun _ => ?_
    cases w.outcome with
    | ok => exact ih (left.drop w.count)
    | error => exact Triple.pure fun _ h => h
    | kill => exact Triple.abort fun _ h => h.piece

/-- To close the file leaves a piece of the whole in it. -/
theorem close_spec (w : Write) (raised : Bool) :
    Triple (Written bytes left) (close w left raised) (fun _ => Piece bytes) (Piece bytes) := by
  have hpart : Triple (Written bytes left) (append (left.take w.count)) (fun _ => Piece bytes) (Piece bytes) :=
    (append_spec w.count).post fun _ _ h => h.piece
  unfold close
  cases w.outcome with
  | ok =>
    cases raised with
    -- after an error `close` may flush a part
    | true => exact hpart
    | false =>
      have hall : Triple (Written bytes left) (append (left.take left.length)) _ (Piece bytes) :=
        append_spec left.length
      rw [List.take_length] at hall
      exact hall.post fun _ _ h => h.piece
  | error => exact hpart
  | kill => exact hpart.bind fun _ => Triple.abort fun _ h => h

/-- **Whatever happens to it, the file is the old one or a piece of the new one.** -/
theorem saveCheckpoint_spec (disk : Disk) (blocks : Dict Text PyFloat) (f : File) :
    Triple (· = f) (saveCheckpoint disk (pyBlocks blocks)) (fun _ g => g = f ∨ Piece (saved blocks) g)
      (fun g => g = f ∨ Piece (saved blocks) g) := by
  unfold saveCheckpoint
  cases disk.makedirs with
  | kill => exact Triple.abort fun _ h => Or.inl h
  | error => exact Triple.pure fun _ h => Or.inl h
  | ok =>
    cases disk.openFile with
    | kill => exact Triple.abort fun _ h => Or.inl h
    | error => exact Triple.pure fun _ h => Or.inl h
    | ok =>
      -- from here on the old bytes are gone
      have hopen : Triple (· = f) (Proc.modify fun _ => some []) (fun _ => Written (saved blocks) (saved blocks))
          (Piece (saved blocks)) := Triple.modify fun _ _ => ⟨[], rfl, rfl⟩
      refine Triple.weaken (hopen.bind fun _ => (dump_spec _ _).bind fun r => close_spec _ _) (fun _ h => h)
        (fun _ _ h => Or.inr h) fun _ h => Or.inr h

/-! ## Crashes -/

/-- A piece of a checkpoint is read as the whole of it or as nothing. -/
theorem loadCheckpoint_of_piece {blocks : Dict Text PyFloat} {g : File} (h : Piece (saved blocks) g) :
    loadCheckpoint ofStr g = pyBlocks blocks ∨ loadCheckpoint ofStr g = Dict.empty := by
  obtain ⟨bytes, rfl, hp⟩ := h
  by_cases heq : bytes = saved blocks
  · exact Or.inl (heq ▸ loadCheckpoint_saved blocks)
  · exact Or.inr (loadCheckpoint_piece hp heq)

/-- What a checkpoint loads as after a save that anything may have happened to. -/
theorem loadCheckpoint_after (disk : Disk) (blocks : Dict Text PyFloat) (f : File) :
    ∃ r : Remains, loadCheckpoint ofStr (saveCheckpoint disk (pyBlocks blocks) f).1 =
      (r.file (some (loadCheckpoint ofStr f)) (some (pyBlocks blocks))).getD Dict.empty := by
  have hspec := saveCheckpoint_spec disk blocks f f rfl
  have hfile : (saveCheckpoint disk (pyBlocks blocks) f).1 = f ∨
      Piece (saved blocks) (saveCheckpoint disk (pyBlocks blocks) f).1 := by
    cases h : saveCheckpoint disk (pyBlocks blocks) f with
    | mk g r =>
      rw [h] at hspec
      cases r with
      | some u => exact hspec
      | none => exact hspec
  rcases hfile with h | h
  · exact ⟨.old, by rw [h]; rfl⟩
  · have hload : loadCheckpoint ofStr (saveCheckpoint disk (pyBlocks blocks) f).1 = pyBlocks blocks ∨
        loadCheckpoint ofStr (saveCheckpoint disk (pyBlocks blocks) f).1 = Dict.empty := loadCheckpoint_of_piece h
    rcases hload with hl | hl
    · exact ⟨.new, hl⟩
    · exact ⟨.torn, hl⟩

/-- **A save that nothing happens to is what the next load returns.** -/
theorem loadCheckpoint_saveCheckpoint (writes : List ℕ) (blocks : Dict Text PyFloat) (f : File) :
    loadCheckpoint ofStr
      (saveCheckpoint ⟨.ok, .ok, writes.map (⟨·, .ok⟩), ⟨0, .ok⟩⟩ (pyBlocks blocks) f).1 = pyBlocks blocks := by
  have hdump : ∀ (ws : List ℕ) (done left : List UInt8), done ++ left = saved blocks →
      ∃ done' left', dump (ws.map (⟨·, .ok⟩)) left (some done) = (some done', some (left', false)) ∧
        done' ++ left' = saved blocks := by
    intro ws
    induction ws with
    | nil => exact fun done left h => ⟨done, left, rfl, h⟩
    | cons n ws ih =>
      intro done left h
      exact ih (done ++ left.take n) (left.drop n) (by rw [List.append_assoc, List.take_append_drop, h])
  obtain ⟨done, left, heq, hsaved⟩ := hdump writes [] (saved blocks) rfl
  have hrun : saveCheckpoint ⟨.ok, .ok, writes.map (⟨·, .ok⟩), ⟨0, .ok⟩⟩ (pyBlocks blocks) f =
      (some (done ++ left), some ()) := by
    show (dump (writes.map (⟨·, .ok⟩)) (saved blocks) >>= fun r => close ⟨0, .ok⟩ r.1 r.2) (some []) = _
    rw [bind_some heq]
    rfl
  rw [hrun, hsaved, loadCheckpoint_saved]

/-- The process is killed once the file is open. -/
def killedOpen : Disk := ⟨.ok, .ok, [], ⟨0, .kill⟩⟩

theorem saved_ne_nil (blocks : Dict Text PyFloat) : saved blocks ≠ [] := by
  unfold saved encodeUtf8 dumpsItems
  rw [List.flatMap_cons]
  exact List.append_ne_nil_of_left_ne_nil String.utf8EncodeChar_ne_nil _

/-- After a kill between the open and the first write nothing is left. -/
theorem loadCheckpoint_killedOpen (blocks : Dict Text PyFloat) (f : File) :
    loadCheckpoint ofStr (saveCheckpoint killedOpen (pyBlocks blocks) f).1 = Dict.empty :=
  loadCheckpoint_piece (List.nil_prefix) (saved_ne_nil blocks).symm

/-- **What a killed save leaves** is the old file, a torn one or the new one, and it can be any of them. -/
theorem killed_save_iff (blocks : Dict Text PyFloat) (f : File) (d : Dict PyStr PyFloat) :
    (∃ disk, (saveCheckpoint disk (pyBlocks blocks) f).2 = none ∧
        loadCheckpoint ofStr (saveCheckpoint disk (pyBlocks blocks) f).1 = d) ↔
      ∃ r : Remains, (r.file (some (loadCheckpoint ofStr f)) (some (pyBlocks blocks))).getD Dict.empty = d := by
  constructor
  · rintro ⟨disk, -, rfl⟩
    obtain ⟨r, hr⟩ := @loadCheckpoint_after ofStr disk blocks f
    exact ⟨r, hr.symm⟩
  · rintro ⟨r, rfl⟩
    cases r with
    | old => exact ⟨⟨.kill, .ok, [], ⟨0, .ok⟩⟩, rfl, rfl⟩
    | torn => exact ⟨killedOpen, rfl, loadCheckpoint_killedOpen blocks f⟩
    | new =>
      -- killed in the close, with all of the bytes on the disk
      have hrun : saveCheckpoint ⟨.ok, .ok, [], ⟨(saved blocks).length, .kill⟩⟩ (pyBlocks blocks) f =
          (some ((saved blocks).take (saved blocks).length), none) := rfl
      refine ⟨⟨.ok, .ok, [], ⟨(saved blocks).length, .kill⟩⟩, by rw [hrun], ?_⟩
      rw [hrun, List.take_length, loadCheckpoint_saved]
      rfl

theorem pyBlocks_eq_empty {blocks : Dict Text PyFloat} : pyBlocks blocks = Dict.empty ↔ blocks = Dict.empty := by
  constructor
  · intro h
    have hitems : pyItems blocks.items = [] := congrArg Dict.items h
    exact Dict.ext_items (List.map_eq_nil_iff.1 hitems)
  · rintro rfl
    rfl

/-- **When a crash keeps the old blocks or the new ones**: only when there are none to lose. -/
theorem crash_atomic_iff (ofStr : PyStr → Option PyFloat) (f : File) (blocks : Dict Text PyFloat) :
    (∀ disk, loadCheckpoint ofStr (saveCheckpoint disk (pyBlocks blocks) f).1 = loadCheckpoint ofStr f ∨
        loadCheckpoint ofStr (saveCheckpoint disk (pyBlocks blocks) f).1 = pyBlocks blocks) ↔
      loadCheckpoint ofStr f = Dict.empty ∨ blocks = Dict.empty := by
  constructor
  · intro h
    -- the crash that leaves an empty file decides
    rcases h killedOpen with h | h
    · rw [loadCheckpoint_killedOpen] at h
      exact Or.inl h.symm
    · rw [loadCheckpoint_killedOpen] at h
      exact Or.inr (pyBlocks_eq_empty.1 h.symm)
  · intro h disk
    obtain ⟨r, hl⟩ := @loadCheckpoint_after ofStr disk blocks f
    cases r with
    | old => exact Or.inl hl
    | torn =>
      rcases h with h | h
      · exact Or.inl (hl.trans h.symm)
      · exact Or.inr (hl.trans (pyBlocks_eq_empty.2 h).symm)
    | new => exact Or.inr hl

/-- A deadline of 30 seconds. -/
def thirty : PyFloat := .finite ⟨false, 30 * 2 ^ 48, 1026, by decide, by decide, Or.inl (by decide)⟩

/-- A checkpoint of one block. -/
def oneBlock : Dict Text PyFloat := Dict.empty.set "10.0.1.5".toList thirty

/-- A checkpoint of two. -/
def twoBlocks : Dict Text PyFloat := oneBlock.set "10.0.1.6".toList thirty

/-- **A crash loses every block**: the brain is killed between opening the file and writing it. -/
theorem crash_loses_blocks :
    loadCheckpoint (fun _ => none) (some (saved oneBlock)) = pyBlocks oneBlock ∧
      loadCheckpoint (fun _ => none) (saveCheckpoint killedOpen (pyBlocks twoBlocks) (some (saved oneBlock))).1 ≠
        pyBlocks oneBlock ∧
      loadCheckpoint (fun _ => none) (saveCheckpoint killedOpen (pyBlocks twoBlocks) (some (saved oneBlock))).1 ≠
        pyBlocks twoBlocks := by
  have hone : oneBlock ≠ Dict.empty := fun h => nomatch congrArg Dict.items h
  have htwo : twoBlocks ≠ Dict.empty := fun h => nomatch congrArg Dict.size h
  rw [loadCheckpoint_killedOpen]
  exact ⟨loadCheckpoint_saved oneBlock, fun h => hone (pyBlocks_eq_empty.1 h.symm),
    fun h => htwo (pyBlocks_eq_empty.1 h.symm)⟩

end FluxGuard.Checkpoint
