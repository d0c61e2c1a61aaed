import StpPlatform.ByteMemory

/-! # MD5 (`stputil/security/md5.cpp`)

    The hash as the source computes it.  A context holds the state, the number of
    bits so far in two words, and the bytes that do not fill a block yet.  The 64
    lines of `MD5_Transform` are data, in the source's words, and run over named
    registers.

    A result of `none` is a call that does not come back: it reads behind the
    bytes it was given, writes behind the buffer of the context, or goes on for
    ever. -/

namespace StpMd5

open ByteMemory (Bytes write)

/-! ## The macros -/

/-- `#define F(x, y, z)`. -/
def F (x y z : UInt32) : UInt32 := (x &&& y) ||| (~~~x &&& z)

/-- `#define G(x, y, z)`. -/
def G (x y z : UInt32) : UInt32 := (x &&& z) ||| (y &&& ~~~z)

/-- `#define H(x, y, z)`. -/
def H (x y z : UInt32) : UInt32 := x ^^^ y ^^^ z

/-- `#define I(x, y, z)`. -/
def I (x y z : UInt32) : UInt32 := y ^^^ (x ||| ~~~z)

/-- `ROTATE_LEFT(x, n)`. -/
def rotateLeft (x n : UInt32) : UInt32 := (x <<< n) ||| (x >>> (32 - n))

/-- The variables `a`, `b`, `c`, `d` of `MD5_Transform`, or the words of a state. -/
structure Words where
  a : UInt32
  b : UInt32
  c : UInt32
  d : UInt32
  deriving DecidableEq

/-- The name of a variable. -/
inductive Reg where
  | a
  | b
  | c
  | d
  deriving DecidableEq

/-- The variable of a name. -/
def Words.get (w : Words) : Reg → UInt32
  | .a => w.a
  | .b => w.b
  | .c => w.c
  | .d => w.d

/-- An assignment to it. -/
def Words.set (w : Words) (r : Reg) (v : UInt32) : Words :=
  match r with
  | .a => { w with a := v }
  | .b => { w with b := v }
  | .c => { w with c := v }
  | .d => { w with d := v }

/-- The function that a line mixes with. -/
inductive Mix where
  | f
  | g
  | h
  | i
  deriving DecidableEq

/-- What the macro of a round computes from three words. -/
def Mix.apply : Mix → UInt32 → UInt32 → UInt32 → UInt32
  | .f => F
  | .g => G
  | .h => H
  | .i => I

/-- One line of `MD5_Transform`: its macro, the names it is called with, the
    index into `x`, the shift and the constant. -/
structure Line where
  mix : Mix
  p : Reg
  q : Reg
  r : Reg
  t : Reg
  k : Nat
  s : UInt32
  ac : UInt32

/-- `#define FF(a, b, c, d, x, s, ac)`. -/
def FF (p q r t : Reg) (k : Nat) (s ac : UInt32) : Line := { mix := .f, p, q, r, t, k, s, ac }

/-- `#define GG(a, b, c, d, x, s, ac)`. -/
def GG (p q r t : Reg) (k : Nat) (s ac : UInt32) : Line := { mix := .g, p, q, r, t, k, s, ac }

/-- `#define HH(a, b, c, d, x, s, ac)`. -/
def HH (p q r t : Reg) (k : Nat) (s ac : UInt32) : Line := { mix := .h, p, q, r, t, k, s, ac }

/-- `#define II(a, b, c, d, x, s, ac)`. -/
def II (p q r t : Reg) (k : Nat) (s ac : UInt32) : Line := { mix := .i, p, q, r, t, k, s, ac }

/-- The three statements of a line. -/
def Line.run (x : List UInt32) (w : Words) (l : Line) : Words :=
  let w := w.set l.p (w.get l.p + (l.mix.apply (w.get l.q) (w.get l.r) (w.get l.t)
    + x.getD l.k 0 + l.ac))
  let w := w.set l.p (rotateLeft (w.get l.p) l.s)
  w.set l.p (w.get l.p + w.get l.q)

/-- `#define S11 7`, and fifteen more: the shifts of the four rounds. -/
def S11 : UInt32 := 7
def S12 : UInt32 := 12
def S13 : UInt32 := 17
def S14 : UInt32 := 22
def S21 : UInt32 := 5
def S22 : UInt32 := 9
def S23 : UInt32 := 14
def S24 : UInt32 := 20
def S31 : UInt32 := 4
def S32 : UInt32 := 11
def S33 : UInt32 := 16
def S34 : UInt32 := 23
def S41 : UInt32 := 6
def S42 : UInt32 := 10
def S43 : UInt32 := 15
def S44 : UInt32 := 21

/-- `/* Round 1 */`. -/
def round1 : List Line :=
  [ FF .a .b .c .d 0 S11 0xd76aa478,
    FF .d .a .b .c 1 S12 0xe8c7b756,
    FF .c .d .a .b 2 S13 0x242070db,
    FF .b .c .d .a 3 S14 0xc1bdceee,
    FF .a .b .c .d 4 S11 0xf57c0faf,
    FF .d .a .b .c 5 S12 0x4787c62a,
    FF .c .d .a .b 6 S13 0xa8304613,
    FF .b .c .d .a 7 S14 0xfd469501,
    FF .a .b .c .d 8 S11 0x698098d8,
    FF .d .a .b .c 9 S12 0x8b44f7af,
    FF .c .d .a .b 10 S13 0xffff5bb1,
    FF .b .c .d .a 11 S14 0x895cd7be,
    FF .a .b .c .d 12 S11 0x6b901122,
    FF .d .a .b .c 13 S12 0xfd987193,
    FF .c .d .a .b 14 S13 0xa679438e,
    FF .b .c .d .a 15 S14 0x49b40821 ]

/-- `/* Round 2 */`. -/
def round2 : List Line :=
  [ GG .a .b .c .d 1 S21 0xf61e2562,
    GG .d .a .b .c 6 S22 0xc040b340,
    GG .c .d .a .b 11 S23 0x265e5a51,
    GG .b .c .d .a 0 S24 0xe9b6c7aa,
    GG .a .b .c .d 5 S21 0xd62f105d,
    GG .d .a .b .c 10 S22 0x2441453,
    GG .c .d .a .b 15 S23 0xd8a1e681,
    GG .b .c .d .a 4 S24 0xe7d3fbc8,
    GG .a .b .c .d 9 S21 0x21e1cde6,
    GG .d .a .b .c 14 S22 0xc33707d6,
    GG .c .d .a .b 3 S23 0xf4d50d87,
    GG .b .c .d .a 8 S24 0x455a14ed,
    GG .a .b .c .d 13 S21 0xa9e3e905,
    GG .d .a .b .c 2 S22 0xfcefa3f8,
    GG .c .d .a .b 7 S23 0x676f02d9,
    GG .b .c .d .a 12 S24 0x8d2a4c8a ]

/-- `/* Round 3 */`. -/
def round3 : List Line :=
  [ HH .a .b .c .d 5 S31 0xfffa3942,
    HH .d .a .b .c 8 S32 0x8771f681,
    HH .c .d .a .b 11 S33 0x6d9d6122,
    HH .b .c .d .a 14 S34 0xfde5380c,
    HH .a .b .c .d 1 S31 0xa4beea44,
    HH .d .a .b .c 4 S32 0x4bdecfa9,
    HH .c .d .a .b 7 S33 0xf6bb4b60,
    HH .b .c .d .a 10 S34 0xbebfbc70,
    HH .a .b .c .d 13 S31 0x289b7ec6,
    HH .d .a .b .c 0 S32 0xeaa127fa,
    HH .c .d .a .b 3 S33 0xd4ef3085,
    HH .b .c .d .a 6 S34 0x4881d05,
    HH .a .b .c .d 9 S31 0xd9d4d039,
    HH .d .a .b .c 12 S32 0xe6db99e5,
    HH .c .d .a .b 15 S33 0x1fa27cf8,
    HH .b .c .d .a 2 S34 0xc4ac5665 ]

/-- `/* Round 4 */`. -/
def round4 : List Line :=
  [ II .a .b .c .d 0 S41 0xf4292244,
    II .d .a .b .c 7 S42 0x432aff97,
    II .c .d .a .b 14 S43 0xab9423a7,
    II .b .c .d .a 5 S44 0xfc93a039,
    II .a .b .c .d 12 S41 0x655b59c3,
    II .d .a .b .c 3 S42 0x8f0ccc92,
    II .c .d .a .b 10 S43 0xffeff47d,
    II .b .c .d .a 1 S44 0x85845dd1,
    II .a .b .c .d 8 S41 0x6fa87e4f,
    II .d .a .b .c 15 S42 0xfe2ce6e0,
    II .c .d .a .b 6 S43 0xa3014314,
    II .b .c .d .a 13 S44 0x4e0811a1,
    II .a .b .c .d 4 S41 0xf7537e82,
    II .d .a .b .c 11 S42 0xbd3af235,
    II .c .d .a .b 2 S43 0x2ad7d2bb,
    II .b .c .d .a 9 S44 0xeb86d391 ]

/-! ## Words and bytes -/

/-- The four bytes that one turn of `MD5_Encode` writes. -/
def encodeWord (v : UInt32) : List UInt8 :=
  [(v &&& 0xff).toUInt8, ((v >>> 8) &&& 0xff).toUInt8, ((v >>> 16) &&& 0xff).toUInt8,
    ((v >>> 24) &&& 0xff).toUInt8]

/-- `MD5_Encode(output, input, len)`, `len` four times the number of words. -/
def md5Encode (input : List UInt32) : List UInt8 := input.flatMap encodeWord

/-- The word that one turn of `MD5_Decode` writes. -/
def decodeWord (input : List UInt8) (j : Nat) : UInt32 :=
  (input.getD j 0).toUInt32 ||| ((input.getD (j + 1) 0).toUInt32 <<< 8)
    ||| ((input.getD (j + 2) 0).toUInt32 <<< 16) ||| ((input.getD (j + 3) 0).toUInt32 <<< 24)

/-- `MD5_Decode(output, input, len)`. -/
def md5Decode (input : List UInt8) (len : Nat) : List UInt32 :=
  (List.range (len / 4)).map (fun i => decodeWord input (4 * i))

/-- `MD5_Transform(state, block)`. -/
def md5Transform (state : Words) (block : List UInt8) : Words :=
  let x := md5Decode block 64
  let w := (round1 ++ round2 ++ round3 ++ round4).foldl (Line.run x) state
  { a := state.a + w.a, b := state.b + w.b, c := state.c + w.c, d := state.d + w.d }

/-! ## The context -/

/-- `unsigned char buffer[64]`. -/
structure Buffer where
  bytes : List UInt8
  length_bytes : bytes.length = 64

/-- `memcpy(&buffer[index], bs, bs.length)`. -/
def Buffer.memcpy (buffer : Buffer) (index : Nat) (bs : List UInt8) : Option Buffer :=
  if h : index + bs.length ≤ 64 then
    some
      { bytes := buffer.bytes.take index ++ bs ++ buffer.bytes.drop (index + bs.length)
        length_bytes := by
          have hlen := buffer.length_bytes
          simp only [List.length_append, List.length_take, List.length_drop]
          omega }
  else none

/-- The `n` bytes at `&buf[i]`, of those that the caller hands over. -/
def slice (buf : List UInt8) (i n : Nat) : Option (List UInt8) :=
  if i + n ≤ buf.length then some ((buf.drop i).take n) else none

/-- `MD5Context`. -/
structure Context where
  state : Words
  count0 : UInt32
  count1 : UInt32
  buffer : Buffer

/-- `MD5_Init(context)`: the buffer stays as it is. -/
def md5Init (context : Context) : Context :=
  { context with
    count0 := 0
    count1 := 0
    state := { a := 0x67452301, b := 0xefcdab89, c := 0x98badcfe, d := 0x10325476 } }

/-- `for (i = partLen; i + 63 < len; i += 64)`: the state after the loop, and `i`.
    After 2 ^ 26 turns `i` has gone round. -/
def blocks (buf : List UInt8) (len : UInt32) : Nat → Words → UInt32 → Option (Words × UInt32)
  | 0, _, _ => none
  | fuel + 1, state, i =>
      if i + 63 < len then
        match slice buf i.toNat 64 with
        | none => none
        | some block => blocks buf len fuel (md5Transform state block) (i + 64)
      else some (state, i)

/-- The state, the buffer, `index` and `i` when `MD5_Update` copies what is left. -/
def absorb (context : Context) (buf : List UInt8) (len index : UInt32) :
    Option (Words × Buffer × UInt32 × UInt32) :=
  let partLen := 64 - index
  if partLen ≤ len then
    match slice buf 0 partLen.toNat with
    | none => none
    | some part =>
        match context.buffer.memcpy index.toNat part with
        | none => none
        | some buffer =>
            match blocks buf len 0x4000000 (md5Transform context.state buffer.bytes) partLen with
            | none => none
            | some (state, i) => some (state, buffer, 0, i)
  else some (context.state, context.buffer, index, 0)

/-- `MD5_Update(context, buf, len)`. -/
def md5Update (context : Context) (buf : List UInt8) (len : UInt32) : Option Context :=
  let index := (context.count0 >>> 3) &&& 0x3F
  let count0 := context.count0 + (len <<< 3)
  let count1 := if count0 < (len <<< 3) then context.count1 + 1 else context.count1
  let count1 := count1 + (len >>> 29)
  match absorb context buf len index with
  | none => none
  | some (state, buffer, index, i) =>
      match slice buf i.toNat (len - i).toNat with
      | none => none
      | some tail =>
          match buffer.memcpy index.toNat tail with
          | none => none
          | some buffer => some { state, count0, count1, buffer }

/-- `PADDING`. -/
def padding : List UInt8 := 0x80 :: List.replicate 63 0

/-- `memset(context, 0, sizeof(*context))`. -/
def zeroed : Context :=
  { state := { a := 0, b := 0, c := 0, d := 0 }, count0 := 0, count1 := 0,
    buffer := { bytes := List.replicate 64 0, length_bytes := List.length_replicate } }

/-- `MD5_Final(context, digest)`: the context afterwards and the digest. -/
def md5Final (context : Context) : Option (Context × List UInt8) :=
  let bits := md5Encode [context.count0, context.count1]
  let index := (context.count0 >>> 3) &&& 0x3f
  let padLen := if index < 56 then 56 - index else 120 - index
  match md5Update context padding padLen with
  | none => none
  | some context =>
      match md5Update context bits 8 with
      | none => none
      | some context =>
          some (zeroed, md5Encode [context.state.a, context.state.b, context.state.c,
            context.state.d])

/-- `sprintf(p, "%x", v)`, `p` at offset `off`. -/
def sprintfHex (m : Bytes) (off : Nat) (v : Nat) : Bytes :=
  write m off (((Nat.toDigits 16 v).map fun c => UInt8.ofNat c.toNat) ++ [0])

/-- The two digits of `buff[i]`, at offsets `2 * i` and `2 * i + 1`. -/
def sprintfByte (m : Bytes) (p : UInt8 × Nat) : Bytes :=
  sprintfHex (sprintfHex m (2 * p.2) ((p.1 &&& 0xF0) >>> 4).toNat) (2 * p.2 + 1)
    (p.1 &&& 0x0F).toNat

/-- `MD5_Calculate(pContent, nLen, md5)`: the memory at `md5` afterwards.  The
    local context is not initialised. -/
def md5Calculate (context : Context) (pContent : List UInt8) (nLen : UInt32) (md5 : Bytes) :
    Option Bytes :=
  match md5Update (md5Init context) pContent nLen with
  | none => none
  | some context =>
      match md5Final context with
      | none => none
      | some (_, buff) => some (buff.zipIdx.foldl sprintfByte md5)

end StpMd5
