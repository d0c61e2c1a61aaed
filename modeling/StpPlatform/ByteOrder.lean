import Mathlib.Data.List.Basic

/-! # Byte order

    Numbers of 32 and 16 bits as bytes: in network order, and in the order of a
    host's memory.  `htonl` and `ntohl` are what makes the two meet: storing
    `htonl x` puts `x` into memory in network order on every host
    (`store32_htonl`), and `ntohl` reads it back (`ntohl_load`).

    Nothing here mentions the program. -/

namespace ByteOrder

/-- The four bytes of a 32-bit number, most significant first. -/
def toNetwork32 (x : Nat) : List UInt8 :=
  [UInt8.ofNat (x / 0x1000000), UInt8.ofNat (x / 0x10000),
    UInt8.ofNat (x / 0x100), UInt8.ofNat x]

/-- The two bytes of a 16-bit number, most significant first. -/
def toNetwork16 (x : Nat) : List UInt8 :=
  [UInt8.ofNat (x / 0x100), UInt8.ofNat x]

/-- The eight bytes of a 64-bit number, most significant first. -/
def toNetwork64 (x : Nat) : List UInt8 :=
  toNetwork32 (x / 0x100000000) ++ toNetwork32 x

/-- The number that bytes in network order denote. -/
def ofNetwork (bs : List UInt8) : Nat :=
  bs.foldl (fun acc b => acc * 0x100 + b.toNat) 0

/-- The order of a host's memory. -/
inductive Endian where
  | little
  | big
  deriving DecidableEq, Repr

/-- A 32-bit number in the host's memory. -/
def Endian.store32 (e : Endian) (x : Nat) : List UInt8 :=
  match e with
  | .little => (toNetwork32 x).reverse
  | .big => toNetwork32 x

/-- A 64-bit number in the host's memory. -/
def Endian.store64 (e : Endian) (x : Nat) : List UInt8 :=
  match e with
  | .little => (toNetwork64 x).reverse
  | .big => toNetwork64 x

/-- An `int32_t` in the host's memory, in two's complement. -/
def Endian.storeInt32 (e : Endian) (x : Int) : List UInt8 :=
  e.store32 (x % 0x100000000).toNat

/-- An `int64_t` in the host's memory, in two's complement. -/
def Endian.storeInt64 (e : Endian) (x : Int) : List UInt8 :=
  e.store64 (x % 0x10000000000000000).toNat

/-- The number in the host's memory. -/
def Endian.load (e : Endian) (bs : List UInt8) : Nat :=
  match e with
  | .little => ofNetwork bs.reverse
  | .big => ofNetwork bs

/-- `htonl`: the number that the network bytes of `x` are in memory. -/
def Endian.htonl (e : Endian) (x : Nat) : Nat := e.load (toNetwork32 x)

/-- `htons`, likewise for 16 bits. -/
def Endian.htons (e : Endian) (x : Nat) : Nat := e.load (toNetwork16 x)

/-- `ntohl`: the number whose network bytes are in memory as `x`. -/
def Endian.ntohl (e : Endian) (x : Nat) : Nat := ofNetwork (e.store32 x)

/-- `ntohs`, likewise for 16 bits. -/
def Endian.ntohs (e : Endian) (x : Nat) : Nat :=
  match e with
  | .little => ofNetwork (toNetwork16 x).reverse
  | .big => ofNetwork (toNetwork16 x)

@[simp] theorem length_toNetwork32 (x : Nat) : (toNetwork32 x).length = 4 := rfl

@[simp] theorem length_storeInt32 (e : Endian) (x : Int) :
    (e.storeInt32 x).length = 4 := by
  cases e <;> rfl

@[simp] theorem length_storeInt64 (e : Endian) (x : Int) :
    (e.storeInt64 x).length = 8 := by
  cases e <;> rfl

theorem ofNetwork_four (a b c d : UInt8) :
    ofNetwork [a, b, c, d]
      = ((a.toNat * 0x100 + b.toNat) * 0x100 + c.toNat) * 0x100 + d.toNat := by
  show ((((0 * 0x100 + a.toNat) * 0x100 + b.toNat) * 0x100 + c.toNat) * 0x100
    + d.toNat) = _
  omega

/-- Reading network bytes gives the number back. -/
theorem ofNetwork_toNetwork32 {x : Nat} (h : x < 0x100000000) :
    ofNetwork (toNetwork32 x) = x := by
  rw [toNetwork32, ofNetwork_four]
  simp only [UInt8.toNat_ofNat']
  omega

theorem ofNetwork_toNetwork64 {x : Nat} (h : x < 0x10000000000000000) :
    ofNetwork (toNetwork64 x) = x := by
  simp only [toNetwork64, toNetwork32, ofNetwork, List.cons_append, List.nil_append,
    List.foldl_cons, List.foldl_nil, UInt8.toNat_ofNat']
  omega

theorem toNetwork32_mod (x : Nat) : toNetwork32 (x % 0x100000000) = toNetwork32 x := by
  have hbyte : ∀ y z : Nat, y % 0x100 = z % 0x100 → UInt8.ofNat y = UInt8.ofNat z := by
    intro y z h
    refine UInt8.toNat_inj.mp ?_
    rwa [UInt8.toNat_ofNat', UInt8.toNat_ofNat']
  rw [toNetwork32, toNetwork32, hbyte (x % 0x100000000 / 0x1000000) (x / 0x1000000) (by omega),
    hbyte (x % 0x100000000 / 0x10000) (x / 0x10000) (by omega),
    hbyte (x % 0x100000000 / 0x100) (x / 0x100) (by omega), hbyte (x % 0x100000000) x (by omega)]

theorem exists_four {bs : List UInt8} (h : bs.length = 4) :
    ∃ a b c d, bs = [a, b, c, d] := by
  match bs, h with
  | [a, b, c, d], _ => exact ⟨a, b, c, d, rfl⟩

/-- Four bytes denote a 32-bit number. -/
theorem ofNetwork_lt {bs : List UInt8} (h : bs.length = 4) :
    ofNetwork bs < 0x100000000 := by
  obtain ⟨a, b, c, d, hbs⟩ := exists_four h
  rw [hbs, ofNetwork_four]
  have ha := a.toNat_lt
  have hb := b.toNat_lt
  have hc := c.toNat_lt
  have hd := d.toNat_lt
  omega

/-- Four bytes are the network bytes of the number they denote. -/
theorem toNetwork32_ofNetwork {bs : List UInt8} (h : bs.length = 4) :
    toNetwork32 (ofNetwork bs) = bs := by
  obtain ⟨a, b, c, d, hbs⟩ := exists_four h
  rw [hbs, ofNetwork_four]
  have ha := a.toNat_lt
  have hb := b.toNat_lt
  have hc := c.toNat_lt
  have hd := d.toNat_lt
  have hbyte : ∀ (x : UInt8) (n : Nat), n % 256 = x.toNat → UInt8.ofNat n = x := by
    intro x n hn
    apply UInt8.toNat_inj.mp
    rw [UInt8.toNat_ofNat']
    exact hn
  rw [toNetwork32, hbyte a _ (by omega), hbyte b _ (by omega), hbyte c _ (by omega),
    hbyte d _ (by omega)]

/-- **ON EVERY HOST** `htonl` puts the network bytes into memory. -/
theorem store32_htonl (e : Endian) (x : Nat) :
    e.store32 (e.htonl x) = toNetwork32 x := by
  cases e with
  | little =>
      show (toNetwork32 (ofNetwork (toNetwork32 x).reverse)).reverse = _
      rw [toNetwork32_ofNetwork (by simp), List.reverse_reverse]
  | big =>
      show toNetwork32 (ofNetwork (toNetwork32 x)) = _
      rw [toNetwork32_ofNetwork rfl]

/-- **ON EVERY HOST** `ntohl` undoes a load of network bytes. -/
theorem ntohl_load (e : Endian) {bs : List UInt8} (h : bs.length = 4) :
    e.ntohl (e.load bs) = ofNetwork bs := by
  cases e with
  | little =>
      show ofNetwork (toNetwork32 (ofNetwork bs.reverse)).reverse = _
      rw [toNetwork32_ofNetwork (by simpa using h), List.reverse_reverse]
  | big =>
      show ofNetwork (toNetwork32 (ofNetwork bs)) = _
      rw [toNetwork32_ofNetwork h]

end ByteOrder
