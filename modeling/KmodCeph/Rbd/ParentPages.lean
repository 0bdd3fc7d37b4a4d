import KmodCeph.Rbd.Slices

namespace KmodCeph.Rbd

open Lib Messenger List

/-- The data objects that are there, with their sizes. -/
abbrev DataObjects := Nat → Option (Nat × (Nat → UInt8))

/-- An image that is read, down to the first of its ancestors that has no parent. -/
inductive ParentImage where
  | flat (order : Nat) (objects : DataObjects)
  | clone (order : Nat) (objects : DataObjects) (parentOverlap : Nat) (parent : ParentImage)

def DataObjects.byte (objects : DataObjects) (order position : Nat) (missing : UInt8) : UInt8 :=
  match objects (position / 2 ^ order) with
  | some (size, content) => if position % 2 ^ order < size then content (position % 2 ^ order) else 0
  | none => missing

def ParentImage.visible : ParentImage → Nat → UInt8
  | .flat order objects, position => objects.byte order position 0
  | .clone order objects parentOverlap parent, position =>
    objects.byte order position (if position < parentOverlap then parent.visible position else 0)

/-- What a read may leave in each byte of a page array. It puts nothing into a byte that has no value here, and where
there are several it depends on which part of the read completes last. -/
abbrev PageArray := Nat → List UInt8

def PageArray.byte (array : PageArray) (place : Nat) : Option UInt8 :=
  match array place with
  | [] => none
  | value :: rest => if rest.all (· = value) then some value else none

/-- What `zero_pages` leaves of the array, from one of its pages on. -/
def zeroArray (pages offset finish : Nat) (array : PageArray) : PageArray := fun place =>
  if pages * pageSize + offset ≤ place ∧ place < pages * pageSize + finish then [0] else array place

/-- The data of an OSD read, which starts at the alignment in the first page. -/
def osdData (pages alignment count : Nat) (data : Nat → UInt8) : PageArray := fun place =>
  if pages * pageSize + alignment ≤ place ∧ place < pages * pageSize + alignment + count then
    [data (place - (pages * pageSize + alignment))]
  else []

/-- An object request of a read: what the OSD has is put in place, and `rbd_img_obj_request_read_callback` zeroes the
rest. What becomes of a missing object depends on the image. -/
def readSlice (objects : DataObjects) (missing : Nat → ObjRequest Unit → PageArray) (pages : Nat) (slice : Slice) :
    PageArray :=
  match slice.data with
  | .pages first _ alignment =>
    match objects slice.segment with
    | some (size, content) =>
      let xferred := min slice.obj.length (size - slice.obj.offset)
      zeroArray (pages + first) xferred slice.obj.length
        (osdData (pages + first) alignment xferred fun byte => content (slice.obj.offset + byte))
    | none => missing (pages + first) slice.obj
  | _ => fun _ => []

/-- A read of an image into a page array, from one of its pages on. -/
def readObjects (order : Nat) (objects : DataObjects) (missing : Nat → ObjRequest Unit → PageArray)
    (pages offset length : Nat) : PageArray :=
  match imgRequestFill id (fun _ => true) (length + 1) order .pages offset length with
  | .ok (some slices) => fun place => slices.flatMap fun slice => readSlice objects missing pages slice place
  | _ => fun _ => []

/-- `rbd_osd_read_callback` of a missing object: its parent is read, into the same pages, and is zeroed behind the
overlap. -/
def ParentImage.read : ParentImage → Nat → Nat → Nat → PageArray
  | .flat order objects => readObjects order objects fun pages obj => zeroArray pages 0 obj.length fun _ => []
  | .clone order objects parentOverlap parent => readObjects order objects fun pages obj =>
    if obj.imgOffset < parentOverlap then
      zeroArray pages (min obj.length (parentOverlap - obj.imgOffset)) obj.length
        (parent.read pages obj.imgOffset obj.length)
    else zeroArray pages 0 obj.length fun _ => []

/-- Every object of the image and its ancestors is made of pages. -/
def ParentImage.Paged : ParentImage → Prop
  | .flat order _ => 12 ≤ order ∧ order ≤ 31
  | .clone order _ _ parent => (12 ≤ order ∧ order ≤ 31) ∧ parent.Paged

section

variable {order pages offset length place : Nat} {objects : DataObjects} {values : Nat → UInt8}
variable {missing : Nat → ObjRequest Unit → PageArray}

end

end KmodCeph.Rbd
