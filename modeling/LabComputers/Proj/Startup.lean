import LabComputers.Proj.Sprites

/-!
# Start-up

`proj_main_loop` and the set-up functions of `video_card.c`.  The calls to the operating system and
to the course's library are not part of the repository; `Platform` holds the result of each of them,
whatever it is.  `panic` does not return: it is an error of the `Except` monad, with its message.
-/

namespace LabComputers.Startup

def ok : ℤ := 0
def exitSuccess : ℤ := 0
def exitFailure : ℤ := 1

/-- `NULL` -/
def null : UInt32 := 0

/-- `MAP_FAILED` -/
def mapFailed : UInt32 := 0xFFFFFFFF

/-- `GAME_GRAPHICS_MODE` -/
def graphicsMode : UInt16 := 0x115

def vbeModeAh : UInt16 := 0x4F
def vbeSetModeAl : UInt16 := 0x02
def biosServiceVideoCard : UInt8 := 0x10

/-- The fields of `vbe_mode_info_t` that start-up uses. -/
structure ModeInfo where
  xResolution : UInt16
  yResolution : UInt16
  bitsPerPixel : UInt8
  physBasePtr : UInt32

/-- `struct minix_mem_range` -/
structure MemRange where
  base : UInt32
  limit : UInt32

/-- The registers that `vg_setGraphics` sets. -/
structure Reg86 where
  ax : UInt16
  bx : UInt16
  intno : UInt8

/-- The results of the external calls.  Pointers are addresses. -/
structure Platform where
  vbeGetModeInfo : UInt16 → ℤ × ModeInfo
  malloc : UInt32 → UInt32
  sysPrivctl : MemRange → ℤ
  vmMapPhys : UInt32 → UInt32 → UInt32
  xpmLoad : Xpm → UInt32
  sysInt86 : Reg86 → ℤ
  vgExit : ℤ

/-- The static variables of `video_card.c` that start-up sets. -/
structure Statics where
  hRes : UInt32
  vRes : UInt32
  bytesPerPixel : UInt32
  buffer : UInt32
  videoMem : UInt32
  sprites : Xpm → UInt32

/-- The static variables before start-up. -/
def Statics.zero : Statics := ⟨0, 0, 0, null, null, fun _ => null⟩

/-- What `proj_main_loop` does unless it panics: return without having entered `game_loop`, or enter
`game_loop` and return after it. -/
inductive Outcome where
  | returned (code : ℤ)
  | entered (statics : Statics) (code : ℤ)

/-! ## The set-up functions -/

section Functions

variable (p : Platform)

/-- `vg_prepareGraphics` -/
def vgPrepareGraphics (mode : UInt16) (v : Statics) : Except String (Bool × Statics) :=
  let (r, info) := p.vbeGetModeInfo mode
  if r ≠ ok then return (true, v)
  else
    let hRes := info.xResolution.toUInt32
    let vRes := info.yResolution.toUInt32
    let bytesPerPixel := (info.bitsPerPixel.toUInt32 + 7) / 8
    let vramSize := hRes * vRes * bytesPerPixel
    let buffer := p.malloc vramSize
    let mr : MemRange := ⟨info.physBasePtr, info.physBasePtr + vramSize⟩
    let r := p.sysPrivctl mr
    if ok ≠ r then throw s!"sys_privctl (ADD_MEM) failed: {r}\n"
    else
      let videoMem := p.vmMapPhys mr.base vramSize
      if videoMem = mapFailed then throw "couldn’t map video memory"
      else return (true, { v with hRes, vRes, bytesPerPixel, buffer, videoMem })

/-- `vg_setGraphics` -/
def vgSetGraphics (mode : UInt16) : Bool :=
  let r86 : Reg86 :=
    ⟨(vbeModeAh <<< 8) ||| vbeSetModeAl, ((1 : UInt16) <<< 14) ||| mode, biosServiceVideoCard⟩
  if p.sysInt86 r86 ≠ ok then false else true

/-- `vg_load_sprites`: the pointers it keeps.  The sprite tables are those of `Sprites`. -/
def vgLoadSprites (v : Statics) : Bool × Statics := (true, { v with sprites := p.xpmLoad })

/-- `vg_free` -/
def vgFree : Bool := true

/-- `proj_main_loop` -/
def projMainLoop : Except String Outcome := do
  let (prepared, v) ← vgPrepareGraphics p graphicsMode .zero
  if !prepared then return .returned exitFailure
  let (loaded, v) := vgLoadSprites p v
  if !loaded then return .returned exitFailure
  if !vgSetGraphics p graphicsMode then return .returned exitFailure
  if p.vgExit ≠ ok then return .entered v exitFailure
  if !vgFree then return .entered v exitFailure
  return .entered v exitSuccess

end Functions

end LabComputers.Startup
