import Famicom.Cpu.Instruction

/-!
# Opcodes

The opcode matrix: the meaning and the base cost of each of the 256 opcodes.  Besides the 151
documented opcodes it has the undocumented ones that only read and drop an operand, and the
second opcode of immediate subtraction.  Twelve opcodes stop the processor; all others are
reported, not executed.
-/

namespace Famicom.Cpu

inductive Opcode where
  /-- An instruction and its cycles without penalties. -/
  | timed (instruction : Instruction) (cycles : Nat)
  /-- Stops the processor until it is reset. -/
  | jam
  /-- Undocumented and not executed. -/
  | unsupported
  deriving DecidableEq

/-- The opcodes in numerical order, sixteen to a row. -/
def Opcode.matrix : Vector (Vector Opcode 16) 16 := #v[
  #v[ -- $00 to $0F
    .timed .softwareInterrupt 7, -- BRK
    .timed (.read .bitOr .indexedIndirect) 6, -- ORA ($nn,X)
    .jam,
    .unsupported,
    .timed (.read .discard .zeroPage) 3, -- NOP $nn
    .timed (.read .bitOr .zeroPage) 3, -- ORA $nn
    .timed (.modify .shiftLeft .zeroPage) 5, -- ASL $nn
    .unsupported,
    .timed .pushStatus 3, -- PHP
    .timed (.read .bitOr .immediate) 2, -- ORA #nn
    .timed (.modifyAccumulator .shiftLeft) 2, -- ASL A
    .unsupported,
    .timed (.read .discard .absolute) 4, -- NOP $nnnn
    .timed (.read .bitOr .absolute) 4, -- ORA $nnnn
    .timed (.modify .shiftLeft .absolute) 6, -- ASL $nnnn
    .unsupported
  ],
  #v[ -- $10 to $1F
    .timed (.branch .negative false) 2, -- BPL offset
    .timed (.read .bitOr .indirectIndexed) 5, -- ORA ($nn),Y
    .jam,
    .unsupported,
    .timed (.read .discard .zeroPageX) 4, -- NOP $nn,X
    .timed (.read .bitOr .zeroPageX) 4, -- ORA $nn,X
    .timed (.modify .shiftLeft .zeroPageX) 6, -- ASL $nn,X
    .unsupported,
    .timed (.internal (.setFlag .carry false)) 2, -- CLC
    .timed (.read .bitOr .absoluteY) 4, -- ORA $nnnn,Y
    .timed (.internal .idle) 2, -- NOP
    .unsupported,
    .timed (.read .discard .absoluteX) 4, -- NOP $nnnn,X
    .timed (.read .bitOr .absoluteX) 4, -- ORA $nnnn,X
    .timed (.modify .shiftLeft .absoluteX) 7, -- ASL $nnnn,X
    .unsupported
  ],
  #v[ -- $20 to $2F
    .timed .call 6, -- JSR $nnnn
    .timed (.read .bitAnd .indexedIndirect) 6, -- AND ($nn,X)
    .jam,
    .unsupported,
    .timed (.read .bitTest .zeroPage) 3, -- BIT $nn
    .timed (.read .bitAnd .zeroPage) 3, -- AND $nn
    .timed (.modify .rotateLeft .zeroPage) 5, -- ROL $nn
    .unsupported,
    .timed .pullStatus 4, -- PLP
    .timed (.read .bitAnd .immediate) 2, -- AND #nn
    .timed (.modifyAccumulator .rotateLeft) 2, -- ROL A
    .unsupported,
    .timed (.read .bitTest .absolute) 4, -- BIT $nnnn
    .timed (.read .bitAnd .absolute) 4, -- AND $nnnn
    .timed (.modify .rotateLeft .absolute) 6, -- ROL $nnnn
    .unsupported
  ],
  #v[ -- $30 to $3F
    .timed (.branch .negative true) 2, -- BMI offset
    .timed (.read .bitAnd .indirectIndexed) 5, -- AND ($nn),Y
    .jam,
    .unsupported,
    .timed (.read .discard .zeroPageX) 4, -- NOP $nn,X
    .timed (.read .bitAnd .zeroPageX) 4, -- AND $nn,X
    .timed (.modify .rotateLeft .zeroPageX) 6, -- ROL $nn,X
    .unsupported,
    .timed (.internal (.setFlag .carry true)) 2, -- SEC
    .timed (.read .bitAnd .absoluteY) 4, -- AND $nnnn,Y
    .timed (.internal .idle) 2, -- NOP
    .unsupported,
    .timed (.read .discard .absoluteX) 4, -- NOP $nnnn,X
    .timed (.read .bitAnd .absoluteX) 4, -- AND $nnnn,X
    .timed (.modify .rotateLeft .absoluteX) 7, -- ROL $nnnn,X
    .unsupported
  ],
  #v[ -- $40 to $4F
    .timed .interruptReturn 6, -- RTI
    .timed (.read .bitXor .indexedIndirect) 6, -- EOR ($nn,X)
    .jam,
    .unsupported,
    .timed (.read .discard .zeroPage) 3, -- NOP $nn
    .timed (.read .bitXor .zeroPage) 3, -- EOR $nn
    .timed (.modify .shiftRight .zeroPage) 5, -- LSR $nn
    .unsupported,
    .timed .pushAccumulator 3, -- PHA
    .timed (.read .bitXor .immediate) 2, -- EOR #nn
    .timed (.modifyAccumulator .shiftRight) 2, -- LSR A
    .unsupported,
    .timed .jump 3, -- JMP $nnnn
    .timed (.read .bitXor .absolute) 4, -- EOR $nnnn
    .timed (.modify .shiftRight .absolute) 6, -- LSR $nnnn
    .unsupported
  ],
  #v[ -- $50 to $5F
    .timed (.branch .overflow false) 2, -- BVC offset
    .timed (.read .bitXor .indirectIndexed) 5, -- EOR ($nn),Y
    .jam,
    .unsupported,
    .timed (.read .discard .zeroPageX) 4, -- NOP $nn,X
    .timed (.read .bitXor .zeroPageX) 4, -- EOR $nn,X
    .timed (.modify .shiftRight .zeroPageX) 6, -- LSR $nn,X
    .unsupported,
    .timed (.internal (.setFlag .interruptDisable false)) 2, -- CLI
    .timed (.read .bitXor .absoluteY) 4, -- EOR $nnnn,Y
    .timed (.internal .idle) 2, -- NOP
    .unsupported,
    .timed (.read .discard .absoluteX) 4, -- NOP $nnnn,X
    .timed (.read .bitXor .absoluteX) 4, -- EOR $nnnn,X
    .timed (.modify .shiftRight .absoluteX) 7, -- LSR $nnnn,X
    .unsupported
  ],
  #v[ -- $60 to $6F
    .timed .subroutineReturn 6, -- RTS
    .timed (.read .add .indexedIndirect) 6, -- ADC ($nn,X)
    .jam,
    .unsupported,
    .timed (.read .discard .zeroPage) 3, -- NOP $nn
    .timed (.read .add .zeroPage) 3, -- ADC $nn
    .timed (.modify .rotateRight .zeroPage) 5, -- ROR $nn
    .unsupported,
    .timed .pullAccumulator 4, -- PLA
    .timed (.read .add .immediate) 2, -- ADC #nn
    .timed (.modifyAccumulator .rotateRight) 2, -- ROR A
    .unsupported,
    .timed .jumpIndirect 5, -- JMP ($nnnn)
    .timed (.read .add .absolute) 4, -- ADC $nnnn
    .timed (.modify .rotateRight .absolute) 6, -- ROR $nnnn
    .unsupported
  ],
  #v[ -- $70 to $7F
    .timed (.branch .overflow true) 2, -- BVS offset
    .timed (.read .add .indirectIndexed) 5, -- ADC ($nn),Y
    .jam,
    .unsupported,
    .timed (.read .discard .zeroPageX) 4, -- NOP $nn,X
    .timed (.read .add .zeroPageX) 4, -- ADC $nn,X
    .timed (.modify .rotateRight .zeroPageX) 6, -- ROR $nn,X
    .unsupported,
    .timed (.internal (.setFlag .interruptDisable true)) 2, -- SEI
    .timed (.read .add .absoluteY) 4, -- ADC $nnnn,Y
    .timed (.internal .idle) 2, -- NOP
    .unsupported,
    .timed (.read .discard .absoluteX) 4, -- NOP $nnnn,X
    .timed (.read .add .absoluteX) 4, -- ADC $nnnn,X
    .timed (.modify .rotateRight .absoluteX) 7, -- ROR $nnnn,X
    .unsupported
  ],
  #v[ -- $80 to $8F
    .timed (.read .discard .immediate) 2, -- NOP #nn
    .timed (.store .a .indexedIndirect) 6, -- STA ($nn,X)
    .timed (.read .discard .immediate) 2, -- NOP #nn
    .unsupported,
    .timed (.store .y .zeroPage) 3, -- STY $nn
    .timed (.store .a .zeroPage) 3, -- STA $nn
    .timed (.store .x .zeroPage) 3, -- STX $nn
    .unsupported,
    .timed (.internal (.decrement .y)) 2, -- DEY
    .timed (.read .discard .immediate) 2, -- NOP #nn
    .timed (.internal (.transfer .x .a)) 2, -- TXA
    .unsupported,
    .timed (.store .y .absolute) 4, -- STY $nnnn
    .timed (.store .a .absolute) 4, -- STA $nnnn
    .timed (.store .x .absolute) 4, -- STX $nnnn
    .unsupported
  ],
  #v[ -- $90 to $9F
    .timed (.branch .carry false) 2, -- BCC offset
    .timed (.store .a .indirectIndexed) 6, -- STA ($nn),Y
    .jam,
    .unsupported,
    .timed (.store .y .zeroPageX) 4, -- STY $nn,X
    .timed (.store .a .zeroPageX) 4, -- STA $nn,X
    .timed (.store .x .zeroPageY) 4, -- STX $nn,Y
    .unsupported,
    .timed (.internal (.transfer .y .a)) 2, -- TYA
    .timed (.store .a .absoluteY) 5, -- STA $nnnn,Y
    .timed (.internal .xToStack) 2, -- TXS
    .unsupported,
    .unsupported,
    .timed (.store .a .absoluteX) 5, -- STA $nnnn,X
    .unsupported,
    .unsupported
  ],
  #v[ -- $A0 to $AF
    .timed (.read (.load .y) .immediate) 2, -- LDY #nn
    .timed (.read (.load .a) .indexedIndirect) 6, -- LDA ($nn,X)
    .timed (.read (.load .x) .immediate) 2, -- LDX #nn
    .unsupported,
    .timed (.read (.load .y) .zeroPage) 3, -- LDY $nn
    .timed (.read (.load .a) .zeroPage) 3, -- LDA $nn
    .timed (.read (.load .x) .zeroPage) 3, -- LDX $nn
    .unsupported,
    .timed (.internal (.transfer .a .y)) 2, -- TAY
    .timed (.read (.load .a) .immediate) 2, -- LDA #nn
    .timed (.internal (.transfer .a .x)) 2, -- TAX
    .unsupported,
    .timed (.read (.load .y) .absolute) 4, -- LDY $nnnn
    .timed (.read (.load .a) .absolute) 4, -- LDA $nnnn
    .timed (.read (.load .x) .absolute) 4, -- LDX $nnnn
    .unsupported
  ],
  #v[ -- $B0 to $BF
    .timed (.branch .carry true) 2, -- BCS offset
    .timed (.read (.load .a) .indirectIndexed) 5, -- LDA ($nn),Y
    .jam,
    .unsupported,
    .timed (.read (.load .y) .zeroPageX) 4, -- LDY $nn,X
    .timed (.read (.load .a) .zeroPageX) 4, -- LDA $nn,X
    .timed (.read (.load .x) .zeroPageY) 4, -- LDX $nn,Y
    .unsupported,
    .timed (.internal (.setFlag .overflow false)) 2, -- CLV
    .timed (.read (.load .a) .absoluteY) 4, -- LDA $nnnn,Y
    .timed (.internal .stackToX) 2, -- TSX
    .unsupported,
    .timed (.read (.load .y) .absoluteX) 4, -- LDY $nnnn,X
    .timed (.read (.load .a) .absoluteX) 4, -- LDA $nnnn,X
    .timed (.read (.load .x) .absoluteY) 4, -- LDX $nnnn,Y
    .unsupported
  ],
  #v[ -- $C0 to $CF
    .timed (.read (.compare .y) .immediate) 2, -- CPY #nn
    .timed (.read (.compare .a) .indexedIndirect) 6, -- CMP ($nn,X)
    .timed (.read .discard .immediate) 2, -- NOP #nn
    .unsupported,
    .timed (.read (.compare .y) .zeroPage) 3, -- CPY $nn
    .timed (.read (.compare .a) .zeroPage) 3, -- CMP $nn
    .timed (.modify .decrement .zeroPage) 5, -- DEC $nn
    .unsupported,
    .timed (.internal (.increment .y)) 2, -- INY
    .timed (.read (.compare .a) .immediate) 2, -- CMP #nn
    .timed (.internal (.decrement .x)) 2, -- DEX
    .unsupported,
    .timed (.read (.compare .y) .absolute) 4, -- CPY $nnnn
    .timed (.read (.compare .a) .absolute) 4, -- CMP $nnnn
    .timed (.modify .decrement .absolute) 6, -- DEC $nnnn
    .unsupported
  ],
  #v[ -- $D0 to $DF
    .timed (.branch .zero false) 2, -- BNE offset
    .timed (.read (.compare .a) .indirectIndexed) 5, -- CMP ($nn),Y
    .jam,
    .unsupported,
    .timed (.read .discard .zeroPageX) 4, -- NOP $nn,X
    .timed (.read (.compare .a) .zeroPageX) 4, -- CMP $nn,X
    .timed (.modify .decrement .zeroPageX) 6, -- DEC $nn,X
    .unsupported,
    .timed (.internal (.setFlag .decimal false)) 2, -- CLD
    .timed (.read (.compare .a) .absoluteY) 4, -- CMP $nnnn,Y
    .timed (.internal .idle) 2, -- NOP
    .unsupported,
    .timed (.read .discard .absoluteX) 4, -- NOP $nnnn,X
    .timed (.read (.compare .a) .absoluteX) 4, -- CMP $nnnn,X
    .timed (.modify .decrement .absoluteX) 7, -- DEC $nnnn,X
    .unsupported
  ],
  #v[ -- $E0 to $EF
    .timed (.read (.compare .x) .immediate) 2, -- CPX #nn
    .timed (.read .subtract .indexedIndirect) 6, -- SBC ($nn,X)
    .timed (.read .discard .immediate) 2, -- NOP #nn
    .unsupported,
    .timed (.read (.compare .x) .zeroPage) 3, -- CPX $nn
    .timed (.read .subtract .zeroPage) 3, -- SBC $nn
    .timed (.modify .increment .zeroPage) 5, -- INC $nn
    .unsupported,
    .timed (.internal (.increment .x)) 2, -- INX
    .timed (.read .subtract .immediate) 2, -- SBC #nn
    .timed (.internal .idle) 2, -- NOP
    .timed (.read .subtract .immediate) 2, -- SBC #nn
    .timed (.read (.compare .x) .absolute) 4, -- CPX $nnnn
    .timed (.read .subtract .absolute) 4, -- SBC $nnnn
    .timed (.modify .increment .absolute) 6, -- INC $nnnn
    .unsupported
  ],
  #v[ -- $F0 to $FF
    .timed (.branch .zero true) 2, -- BEQ offset
    .timed (.read .subtract .indirectIndexed) 5, -- SBC ($nn),Y
    .jam,
    .unsupported,
    .timed (.read .discard .zeroPageX) 4, -- NOP $nn,X
    .timed (.read .subtract .zeroPageX) 4, -- SBC $nn,X
    .timed (.modify .increment .zeroPageX) 6, -- INC $nn,X
    .unsupported,
    .timed (.internal (.setFlag .decimal true)) 2, -- SED
    .timed (.read .subtract .absoluteY) 4, -- SBC $nnnn,Y
    .timed (.internal .idle) 2, -- NOP
    .unsupported,
    .timed (.read .discard .absoluteX) 4, -- NOP $nnnn,X
    .timed (.read .subtract .absoluteX) 4, -- SBC $nnnn,X
    .timed (.modify .increment .absoluteX) 7, -- INC $nnnn,X
    .unsupported
  ]
]

/-- Looks an opcode up by its two hexadecimal digits. -/
def Opcode.ofByte (code : UInt8) : Opcode :=
  have high : code.toNat / 16 < 16 := by have := code.toNat_lt; omega
  have low : code.toNat % 16 < 16 := by omega
  (matrix.get ⟨code.toNat / 16, high⟩).get ⟨code.toNat % 16, low⟩

end Famicom.Cpu
