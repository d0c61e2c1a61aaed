import StpPlatform.AesTables

/-! # AES (`stputil/security/aes_core.c`)

    The key schedules and the two directions of a block, as the source computes
    them without `AES_ASM` and without `FULL_UNROLL`.  `rd_key` is an array that
    the schedules write word by word; what it holds before is part of the key
    that comes in, and a write behind its end is lost. -/

namespace AesCore

open AesTables

/-- `unsigned int rd_key[4 * (AES_MAXNR + 1)]`. -/
abbrev RdKey := Vector UInt32 60

/-- `rk[i]`. -/
def getWord (rk : RdKey) (i : ℕ) : UInt32 := rk.toArray.getD i 0

/-- `rk[i] = w`. -/
def setWord (rk : RdKey) (i : ℕ) (w : UInt32) : RdKey := rk.setIfInBounds i w

/-- `struct aes_key_st`. -/
structure AesKey where
  rdKey : RdKey
  rounds : ℕ

/-- `GETU32(pt + i)`. -/
def getU32 (pt : List UInt8) (i : ℕ) : UInt32 :=
  ((pt.getD i 0).toUInt32 <<< 24) ^^^ ((pt.getD (i + 1) 0).toUInt32 <<< 16)
    ^^^ ((pt.getD (i + 2) 0).toUInt32 <<< 8) ^^^ (pt.getD (i + 3) 0).toUInt32

/-- `PUTU32(ct, st)`. -/
def putU32 (st : UInt32) : List UInt8 :=
  [(st >>> 24).toUInt8, (st >>> 16).toUInt8, (st >>> 8).toUInt8, st.toUInt8]

/-! ## Four bytes through the tables -/

/-- Four bytes, substituted. -/
def subColumn (i₀ i₁ i₂ i₃ : UInt32) : UInt32 :=
  (entry te2 i₀ &&& 0xff000000) ^^^ (entry te3 i₁ &&& 0x00ff0000)
    ^^^ (entry te0 i₂ &&& 0x0000ff00) ^^^ (entry te1 i₃ &&& 0x000000ff)

/-- Four bytes, substituted and mixed. -/
def mixColumn (i₀ i₁ i₂ i₃ : UInt32) : UInt32 :=
  entry te0 i₀ ^^^ entry te1 i₁ ^^^ entry te2 i₂ ^^^ entry te3 i₃

/-- Four bytes, substituted back. -/
def invSubColumn (i₀ i₁ i₂ i₃ : UInt32) : UInt32 :=
  ((td4.getD i₀.toNat 0).toUInt32 <<< 24) ^^^ ((td4.getD i₁.toNat 0).toUInt32 <<< 16)
    ^^^ ((td4.getD i₂.toNat 0).toUInt32 <<< 8) ^^^ (td4.getD i₃.toNat 0).toUInt32

/-- Four bytes, substituted back and mixed back. -/
def invMixColumn (i₀ i₁ i₂ i₃ : UInt32) : UInt32 :=
  entry td0 i₀ ^^^ entry td1 i₁ ^^^ entry td2 i₂ ^^^ entry td3 i₃

/-! ## The key schedules -/

/-- `rk[n + k] = rk[k] ^ rk[n + k - 1]`, `rk` pointing to the word `p`. -/
def chain (p n k : ℕ) (rk : RdKey) : RdKey :=
  setWord rk (p + n + k) (getWord rk (p + k) ^^^ getWord rk (p + n + k - 1))

/-- The first four words of an expansion, for a key of `n` words. -/
def expandFour (n i : ℕ) (rk : RdKey) : RdKey :=
  let p := n * i
  let temp := getWord rk (p + n - 1)
  let rk := setWord rk (p + n) (getWord rk p
    ^^^ subColumn ((temp >>> 16) &&& 0xff) ((temp >>> 8) &&& 0xff) (temp &&& 0xff)
      (temp >>> 24)
    ^^^ rcon.getD i 0)
  chain p n 3 (chain p n 2 (chain p n 1 rk))

/-- The other words of an expansion: none, two or four. -/
def expandRest (n i : ℕ) (rk : RdKey) : RdKey :=
  let p := n * i
  if n = 6 then chain p n 5 (chain p n 4 rk)
  else if n = 8 then
    let temp := getWord rk (p + 11)
    let rk := setWord rk (p + 12) (getWord rk (p + 4)
      ^^^ subColumn (temp >>> 24) ((temp >>> 16) &&& 0xff) ((temp >>> 8) &&& 0xff)
        (temp &&& 0xff))
    chain p n 7 (chain p n 6 (chain p n 5 rk))
  else rk

/-- `while (1)`: expansions from the `i`-th on, until `left` are done. -/
def expandLoop (n : ℕ) : (left i : ℕ) → RdKey → RdKey
  | 0, _, rk => rk
  | left + 1, i, rk =>
      let rk := expandFour n i rk
      if left = 0 then rk else expandLoop n left (i + 1) (expandRest n i rk)

/-- The first `n` words are the key. -/
def loadKey (userKey : List UInt8) : ℕ → RdKey → RdKey
  | 0, rk => rk
  | n + 1, rk => setWord (loadKey userKey n rk) n (getU32 userKey (4 * n))

/-- `int AES_set_encrypt_key(const unsigned char*, const int, AES_KEY*)`. -/
def aesSetEncryptKey (userKey : Option (List UInt8)) (bits : Int)
    (key : Option AesKey) : Int × Option AesKey :=
  match userKey, key with
  | some userKey, some key =>
      if bits ≠ 128 ∧ bits ≠ 192 ∧ bits ≠ 256 then (-2, some key)
      else if bits = 128 then
        (0, some ⟨expandLoop 4 10 0 (loadKey userKey 4 key.rdKey), 10⟩)
      else if bits = 192 then
        (0, some ⟨expandLoop 6 8 0 (loadKey userKey 6 key.rdKey), 12⟩)
      else
        (0, some ⟨expandLoop 8 7 0 (loadKey userKey 8 key.rdKey), 14⟩)
  | _, key => (-1, key)

/-- `temp = rk[i]; rk[i] = rk[j]; rk[j] = temp`. -/
def swapWords (i j : ℕ) (rk : RdKey) : RdKey :=
  setWord (setWord rk i (getWord rk j)) j (getWord rk i)

/-- `for (i = 0, j = 4*rounds; i < j; i += 4, j -= 4)`. -/
def invertOrder (i j : ℕ) (rk : RdKey) : RdKey :=
  if i < j then
    invertOrder (i + 4) (j - 4)
      (swapWords (i + 3) (j + 3) (swapWords (i + 2) (j + 2)
        (swapWords (i + 1) (j + 1) (swapWords i j rk))))
  else rk
termination_by j - i

/-- `Te1[i] & 0xff`. -/
def subByte (i : UInt32) : UInt32 := entry te1 i &&& 0xff

/-- The inverse mixing of one word of a key. -/
def invMixWord (w : UInt32) : UInt32 :=
  invMixColumn (subByte (w >>> 24)) (subByte ((w >>> 16) &&& 0xff))
    (subByte ((w >>> 8) &&& 0xff)) (subByte (w &&& 0xff))

/-- `rk[i]`, mixed back. -/
def invMixAt (i : ℕ) (rk : RdKey) : RdKey := setWord rk i (invMixWord (getWord rk i))

/-- `for (i = 1; i <= n; i++)`, the words of round key `i` being mixed back. -/
def invMixKeys : ℕ → RdKey → RdKey
  | 0, rk => rk
  | n + 1, rk =>
      let p := 4 * (n + 1)
      invMixAt (p + 3) (invMixAt (p + 2) (invMixAt (p + 1) (invMixAt p (invMixKeys n rk))))

/-- `int AES_set_decrypt_key(const unsigned char*, const int, AES_KEY*)`. -/
def aesSetDecryptKey (userKey : Option (List UInt8)) (bits : Int)
    (key : Option AesKey) : Int × Option AesKey :=
  match aesSetEncryptKey userKey bits key with
  | (status, some key) =>
      if status < 0 then (status, some key)
      else (0, some ⟨invMixKeys (key.rounds - 1)
        (invertOrder 0 (4 * key.rounds) key.rdKey), key.rounds⟩)
  | (status, none) => (status, none)

/-! ## A block -/

/-- `s0` to `s3`. -/
structure Columns where
  s0 : UInt32
  s1 : UInt32
  s2 : UInt32
  s3 : UInt32

/-- A round, under the words of a key. -/
abbrev Round := (ℕ → UInt32) → Columns → Columns

/-- One full round of `AES_encrypt`: four columns of tables and a round key. -/
def encryptRound : Round := fun rk ⟨s0, s1, s2, s3⟩ =>
  ⟨mixColumn (s0 >>> 24) ((s1 >>> 16) &&& 0xff) ((s2 >>> 8) &&& 0xff) (s3 &&& 0xff)
      ^^^ rk 0,
    mixColumn (s1 >>> 24) ((s2 >>> 16) &&& 0xff) ((s3 >>> 8) &&& 0xff) (s0 &&& 0xff)
      ^^^ rk 1,
    mixColumn (s2 >>> 24) ((s3 >>> 16) &&& 0xff) ((s0 >>> 8) &&& 0xff) (s1 &&& 0xff)
      ^^^ rk 2,
    mixColumn (s3 >>> 24) ((s0 >>> 16) &&& 0xff) ((s1 >>> 8) &&& 0xff) (s2 &&& 0xff)
      ^^^ rk 3⟩

/-- The round at the end of `AES_encrypt`, under the S-box alone. -/
def encryptLast : Round := fun rk ⟨t0, t1, t2, t3⟩ =>
  ⟨subColumn (t0 >>> 24) ((t1 >>> 16) &&& 0xff) ((t2 >>> 8) &&& 0xff) (t3 &&& 0xff)
      ^^^ rk 0,
    subColumn (t1 >>> 24) ((t2 >>> 16) &&& 0xff) ((t3 >>> 8) &&& 0xff) (t0 &&& 0xff)
      ^^^ rk 1,
    subColumn (t2 >>> 24) ((t3 >>> 16) &&& 0xff) ((t0 >>> 8) &&& 0xff) (t1 &&& 0xff)
      ^^^ rk 2,
    subColumn (t3 >>> 24) ((t0 >>> 16) &&& 0xff) ((t1 >>> 8) &&& 0xff) (t2 &&& 0xff)
      ^^^ rk 3⟩

/-- One full round of `AES_decrypt`, with the rows turned the other way. -/
def decryptRound : Round := fun rk ⟨s0, s1, s2, s3⟩ =>
  ⟨invMixColumn (s0 >>> 24) ((s3 >>> 16) &&& 0xff) ((s2 >>> 8) &&& 0xff) (s1 &&& 0xff)
      ^^^ rk 0,
    invMixColumn (s1 >>> 24) ((s0 >>> 16) &&& 0xff) ((s3 >>> 8) &&& 0xff) (s2 &&& 0xff)
      ^^^ rk 1,
    invMixColumn (s2 >>> 24) ((s1 >>> 16) &&& 0xff) ((s0 >>> 8) &&& 0xff) (s3 &&& 0xff)
      ^^^ rk 2,
    invMixColumn (s3 >>> 24) ((s2 >>> 16) &&& 0xff) ((s1 >>> 8) &&& 0xff) (s0 &&& 0xff)
      ^^^ rk 3⟩

/-- The round at the end of `AES_decrypt`, under `Td4`. -/
def decryptLast : Round := fun rk ⟨t0, t1, t2, t3⟩ =>
  ⟨invSubColumn (t0 >>> 24) ((t3 >>> 16) &&& 0xff) ((t2 >>> 8) &&& 0xff) (t1 &&& 0xff)
      ^^^ rk 0,
    invSubColumn (t1 >>> 24) ((t0 >>> 16) &&& 0xff) ((t3 >>> 8) &&& 0xff) (t2 &&& 0xff)
      ^^^ rk 1,
    invSubColumn (t2 >>> 24) ((t1 >>> 16) &&& 0xff) ((t0 >>> 8) &&& 0xff) (t3 &&& 0xff)
      ^^^ rk 2,
    invSubColumn (t3 >>> 24) ((t2 >>> 16) &&& 0xff) ((t1 >>> 8) &&& 0xff) (t0 &&& 0xff)
      ^^^ rk 3⟩

/-- `rk`, pointing to the word `p`. -/
def fromWord (rk : RdKey) (p : ℕ) : ℕ → UInt32 := fun i => getWord rk (p + i)

/-- `for (;;)`: two rounds at a time, the last of `r` times one and the last
    round; `rk` points to the word `p`. -/
def blockLoop (round last : Round) (rk : RdKey) : (r p : ℕ) → Columns → Columns
  | 0, _, s => s
  | r + 1, p, s =>
      let t := round (fromWord rk (p + 4)) s
      if r = 0 then last (fromWord rk (p + 8)) t
      else blockLoop round last rk r (p + 8) (round (fromWord rk (p + 8)) t)

/-- A block in one direction. -/
def cryptBlock (round last : Round) (inp : List UInt8) (key : AesKey) : List UInt8 :=
  let s : Columns :=
    ⟨getU32 inp 0 ^^^ getWord key.rdKey 0, getU32 inp 4 ^^^ getWord key.rdKey 1,
      getU32 inp 8 ^^^ getWord key.rdKey 2, getU32 inp 12 ^^^ getWord key.rdKey 3⟩
  let s := blockLoop round last key.rdKey (key.rounds >>> 1) 0 s
  putU32 s.s0 ++ putU32 s.s1 ++ putU32 s.s2 ++ putU32 s.s3

/-- `void AES_encrypt(const unsigned char*, unsigned char*, const AES_KEY*)`. -/
def aesEncrypt : List UInt8 → AesKey → List UInt8 :=
  cryptBlock encryptRound encryptLast

/-- `void AES_decrypt(const unsigned char*, unsigned char*, const AES_KEY*)`. -/
def aesDecrypt : List UInt8 → AesKey → List UInt8 :=
  cryptBlock decryptRound decryptLast

end AesCore
