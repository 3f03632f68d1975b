import FuseX.Lib.Ring

/-!
# The Ethernet controller of SpeccyBoot

`enc28j60.c`: frames arrive from the TAP device and are put into the receive area of the
controller's memory; the guest talks to the controller over SPI, bit by bit.

* the registers are bytes, the thirteen-bit pointers are made of two of them;
* memory is addressed from the start of `sram`; a copy that leaves it goes on behind it;
* what `read` and `write` on the TAP device give comes with the action.
-/

namespace FuseX.Nic.SpeccyBoot

open Lib

/-! ## The controller -/

/-- `nic_enc28j60_spi_state`; 6 is no command. -/
inductive SpiState : Type
  | idle
  | cmd
  | rcr
  | rbm
  | wcr
  | wbm
  | bfs
  | bfc
  | unused
  | src
  deriving DecidableEq

/-- The state whose number the top three bits of a command are. -/
def SpiState.ofOpcode (opcode : UInt8) : SpiState :=
  match opcode.toNat with
  | 0 => .rcr
  | 1 => .rbm
  | 2 => .wcr
  | 3 => .wbm
  | 4 => .bfs
  | 5 => .bfc
  | 6 => .unused
  | _ => .src

/-- `nic_enc28j60_t` -/
structure Enc28j60 : Type where
  ethRxBuf : Nat → UInt8
  sram : Nat → UInt8
  /-- The registers of a bank. -/
  registers : Nat → Nat → UInt8
  currRegister : Nat
  currRegisterBank : Nat
  tapFd : Int
  misoBits : UInt8
  misoValidBits : UInt8
  mosiBits : UInt8
  mosiValidBits : UInt8
  spiState : SpiState

/-- `ETH_MAX` -/
def ethMax : Nat := 0x600

/-- `ETH_STATUS_LENGTH` -/
def ethStatusLength : Nat := 6

/-! ## Registers -/

def erdpt : Nat := 0x00
def ewrpt : Nat := 0x02
def etxst : Nat := 0x04
def etxnd : Nat := 0x06
def erxst : Nat := 0x08
def erxnd : Nat := 0x0a
def erxwrpt : Nat := 0x0e
def estat : Nat := 0x1d
def econ2 : Nat := 0x1e
def econ1 : Nat := 0x1f
def epktcnt : Nat := 0x19
def mirdh : Nat := 0x19

def Enc28j60.setRegister (s : Enc28j60) (bank register : Nat) (value : UInt8) : Enc28j60 :=
  { s with
    registers := fun b r => if b = bank ∧ r = register then value else s.registers b r }

/-- `GET_PTR_REG`, by the number of the low byte's register -/
def Enc28j60.getPtrReg (s : Enc28j60) (register : Nat) : Nat :=
  (s.registers 0 (register + 1) &&& 0x1f).toNat * 0x100 + (s.registers 0 register).toNat

/-- `SET_PTR_REG` -/
def Enc28j60.setPtrReg (s : Enc28j60) (register value : Nat) : Enc28j60 :=
  (s.setRegister 0 (register + 1) (UInt8.ofNat (value / 0x100))).setRegister 0 register
    (UInt8.ofNat value)

/-! ## Frames -/

/-- The bytes of the receive buffer. -/
def buffered (buffer : Nat → UInt8) (start count : Nat) : List UInt8 :=
  (List.range count).map fun i => buffer (start + i)

/-- `total_length`: with the status, and rounded up to an even number. -/
def totalLength (n : Nat) : Nat := (ethStatusLength + n + 1) &&& 0x1ffe

/-- Where the next frame goes, as the frame says it. -/
def nextAddr (s : Enc28j60) (n : Nat) : Nat :=
  let next := s.getPtrReg erxwrpt + totalLength n
  if s.getPtrReg erxnd < next then next - s.getPtrReg erxnd + s.getPtrReg erxst else next

/-- The receive buffer with the frame and the address of the next one. -/
def statusBuffer (buffer : Nat → UInt8) (next : Nat) : Nat → UInt8 :=
  overwrite buffer 0 [UInt8.ofNat next, UInt8.ofNat (next / 0x100)]

/-- The controller looks for frames. -/
def Enc28j60.listens (s : Enc28j60) : Prop := s.registers 0 econ1 &&& 0x04 ≠ 0 ∧ 0 < s.tapFd

instance (s : Enc28j60) : Decidable s.listens := inferInstanceAs (Decidable (_ ∧ _))

/-- `nic_enc28j60_poll` with what the TAP device has: nothing, or a frame. -/
def Enc28j60.poll (s : Enc28j60) (frame : List UInt8) : Enc28j60 :=
  if s.listens ∧ frame ≠ [] then
    let received := frame.take ethMax
    let s := { s with ethRxBuf := overwrite s.ethRxBuf ethStatusLength received }
    let wrpt := s.getPtrReg erxwrpt
    let st := s.getPtrReg erxst
    let nd := s.getPtrReg erxnd
    let total := totalLength received.length
    if nd < wrpt then s
    else
      let next := nextAddr s received.length
      let buffer := statusBuffer s.ethRxBuf next
      let sram :=
        if nd < wrpt + total then
          let firstPart := nd - wrpt + 1
          overwrite (overwrite s.sram wrpt (buffered buffer 0 firstPart)) st
            (buffered buffer firstPart (total - firstPart))
        else overwrite s.sram wrpt (buffered buffer 0 total)
      let s := ({ s with ethRxBuf := buffer, sram }).setPtrReg erxwrpt next
      s.setRegister 1 epktcnt (s.registers 1 epktcnt + 1)
  else s

/-! ## SPI -/

/-- `perform_side_effects_for_write`; `sent` is whether the TAP device takes a frame. -/
def Enc28j60.performSideEffects (s : Enc28j60) (sent : Bool) : Enc28j60 :=
  let s :=
    if s.registers 0 econ1 &&& 0x08 ≠ 0 then
      let frameStart := s.getPtrReg etxst + 1
      let frameEnd := s.getPtrReg etxnd
      let s := if frameStart < frameEnd ∧ 0 ≤ s.tapFd ∧ sent = false then { s with tapFd := -1 }
        else s
      s.setRegister 0 econ1 (s.registers 0 econ1 &&& 0xf7)
    else s
  if s.registers 0 econ2 &&& 0x40 ≠ 0 then
    let s := s.setRegister 1 epktcnt (s.registers 1 epktcnt - 1)
    s.setRegister 0 econ2 (s.registers 0 econ2 &&& 0xbf)
  else s

/-- `nic_enc28j60_set_spi_state` -/
def Enc28j60.setSpiState (s : Enc28j60) (newState : SpiState) : Enc28j60 :=
  { s with spiState := newState, misoValidBits := 0, mosiValidBits := 0 }

/-- `nic_enc28j60_reset` -/
def Enc28j60.reset (s : Enc28j60) : Enc28j60 :=
  let s := { s.setSpiState .idle with registers := fun _ _ => 0 }
  (s.setRegister 2 mirdh 0x04).setRegister 0 estat 0x01

/-- The byte that is loaded for MISO, and the read pointer behind it. -/
def Enc28j60.load (s : Enc28j60) : Enc28j60 :=
  match s.spiState with
  | .rcr => { s with misoBits := s.registers s.currRegisterBank s.currRegister }
  | .rbm =>
      let place := s.getPtrReg erdpt
      let s := { s with misoBits := s.sram place }
      s.setPtrReg erdpt
        (if place = s.getPtrReg erxnd then s.getPtrReg erxst else place + 1)
  | _ => s

/-- `nic_enc28j60_spi_produce_bit` -/
def Enc28j60.produceBit (s : Enc28j60) : Bool × Enc28j60 :=
  let s :=
    if s.misoValidBits = 0 then { s.load with misoValidBits := 7 }
    else { s with misoValidBits := s.misoValidBits - 1 }
  (s.misoBits &&& 0x80 ≠ 0, { s with misoBits := s.misoBits <<< 1 })

/-- The end of a command that writes a register. -/
def Enc28j60.writeRegister (s : Enc28j60) (value : UInt8) (sent : Bool) : Enc28j60 :=
  ((s.setRegister s.currRegisterBank s.currRegister value).performSideEffects sent).setSpiState
    .idle

/-- A byte has come over MOSI. -/
def Enc28j60.consumeByte (s : Enc28j60) (byte : UInt8) (sent : Bool) : Enc28j60 :=
  match s.spiState with
  | .cmd =>
      let s := s.setSpiState (.ofOpcode (byte >>> 5 &&& 0x07))
      let s := if s.spiState = .src then s.reset else s
      let register := (byte &&& 0x1f).toNat
      { s with
        currRegister := register
        currRegisterBank :=
          if 0x1b ≤ register then 0 else (s.registers 0 econ1 &&& 0x03).toNat }
  | .wcr => s.writeRegister byte sent
  | .wbm =>
      let place := s.getPtrReg ewrpt
      ({ s with sram := overwrite s.sram place [byte] }).setPtrReg ewrpt (place + 1)
  | .bfs => s.writeRegister (s.registers s.currRegisterBank s.currRegister ||| byte) sent
  | .bfc => s.writeRegister (s.registers s.currRegisterBank s.currRegister &&& ~~~byte) sent
  | _ => s

/-- `nic_enc28j60_spi_consume_bit` -/
def Enc28j60.consumeBit (s : Enc28j60) (bit sent : Bool) : Enc28j60 :=
  let byte := s.mosiBits <<< 1 ||| (if bit then 1 else 0)
  let s := { s with mosiBits := byte, mosiValidBits := s.mosiValidBits + 1 }
  if s.mosiValidBits = 8 then { s.consumeByte byte sent with mosiValidBits := 0 } else s

/-- What happens to the controller. SpeccyBoot polls it and clocks it: a bit out, a bit in. -/
inductive Action : Type
  | poll (frame : List UInt8)
  | select
  | clock (mosi sent : Bool)
  | reset

def Enc28j60.act (s : Enc28j60) : Action → Enc28j60
  | .poll frame => s.poll frame
  | .select => s.setSpiState .cmd
  | .clock mosi sent => s.produceBit.2.consumeBit mosi sent
  | .reset => s.reset

/-- The bits that the clocks of some actions give. -/
def Enc28j60.shifted (s : Enc28j60) : List Action → List Bool
  | [] => []
  | .clock mosi sent :: acts => s.produceBit.1 :: (s.act (.clock mosi sent)).shifted acts
  | a :: acts => (s.act a).shifted acts

end FuseX.Nic.SpeccyBoot
