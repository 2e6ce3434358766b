import Harpocrates.Framework.Hex

namespace Framework.Sha256

abbrev Word := UInt32

def rotr (x n : Word) : Word := (x >>> n) ||| (x <<< (32-n))

def roundConstants : List Word :=
  [0x428a2f98,0x71374491,0xb5c0fbcf,0xe9b5dba5,0x3956c25b,0x59f111f1,0x923f82a4,0xab1c5ed5,
    0xd807aa98,0x12835b01,0x243185be,0x550c7dc3,0x72be5d74,0x80deb1fe,0x9bdc06a7,0xc19bf174,
    0xe49b69c1,0xefbe4786,0x0fc19dc6,0x240ca1cc,0x2de92c6f,0x4a7484aa,0x5cb0a9dc,0x76f988da,
    0x983e5152,0xa831c66d,0xb00327c8,0xbf597fc7,0xc6e00bf3,0xd5a79147,0x06ca6351,0x14292967,
    0x27b70a85,0x2e1b2138,0x4d2c6dfc,0x53380d13,0x650a7354,0x766a0abb,0x81c2c92e,0x92722c85,
    0xa2bfe8a1,0xa81a664b,0xc24b8b70,0xc76c51a3,0xd192e819,0xd6990624,0xf40e3585,0x106aa070,
    0x19a4c116,0x1e376c08,0x2748774c,0x34b0bcb5,0x391c0cb3,0x4ed8aa4a,0x5b9cca4f,0x682e6ff3,
    0x748f82ee,0x78a5636f,0x84c87814,0x8cc70208,0x90befffa,0xa4506ceb,0xbef9a3f7,0xc67178f2]

/-- The eight working variables. -/
structure State where
  (a b c d e f g h : Word)

def initial : State :=
  ⟨0x6a09e667,0xbb67ae85,0x3c6ef372,0xa54ff53a,0x510e527f,0x9b05688c,0x1f83d9ab,0x5be0cd19⟩

/-- One round, with the round constant and the word of the schedule it takes. -/
def round (s : State) (kw : Word × Word) : State :=
  let s1 := rotr s.e 6 ^^^ rotr s.e 11 ^^^ rotr s.e 25
  let ch := (s.e &&& s.f) ^^^ (~~~s.e &&& s.g)
  let t1 := s.h+s1+ch+kw.1+kw.2
  let s0 := rotr s.a 2 ^^^ rotr s.a 13 ^^^ rotr s.a 22
  let maj := (s.a &&& s.b) ^^^ (s.a &&& s.c) ^^^ (s.b &&& s.c)
  ⟨t1+(s0+maj),s.a,s.b,s.c,s.d+t1,s.e,s.f,s.g⟩

/-- The next word of the schedule; the words so far are kept with the newest first. -/
def extend (ws : List Word) : List Word :=
  let w2 := ws.getD 1 0
  let w15 := ws.getD 14 0
  let s0 := rotr w15 7 ^^^ rotr w15 18 ^^^ (w15 >>> 3)
  let s1 := rotr w2 17 ^^^ rotr w2 19 ^^^ (w2 >>> 10)
  (ws.getD 15 0+s0+ws.getD 6 0+s1)::ws

def schedule (block : List Word) : List Word := (Nat.iterate extend 48 block.reverse).reverse

def compress (s : State) (block : List Word) : State :=
  let t := (roundConstants.zip (schedule block)).foldl round s
  ⟨s.a+t.a,s.b+t.b,s.c+t.c,s.d+t.d,s.e+t.e,s.f+t.f,s.g+t.g,s.h+t.h⟩

def word (b : Bytes) : Word := b.foldl (fun acc x => (acc <<< 8) ||| x.toUInt32) 0

def wordBytes (w : Word) : Bytes :=
  [(w >>> 24).toUInt8,(w >>> 16).toUInt8,(w >>> 8).toUInt8,w.toUInt8]

/-- The last `n` big-endian bytes of a number. -/
def beBytes : Nat → Nat → Bytes
  | 0,_ => []
  | n+1,x => beBytes n (x/256)++[UInt8.ofNat x]

theorem length_beBytes (n x : Nat) : (beBytes n x).length=n := by
  induction n generalizing x with
  | zero => rfl
  | succ n ih => rw [beBytes,List.length_append,ih,List.length_singleton]

theorem beNat_beBytes {n x : Nat} (h : x<256^n) : beNat (beBytes n x)=x := by
  induction n generalizing x with
  | zero =>
    have hx : x=0 := by simpa using h
    rw [hx]
    rfl
  | succ n ih =>
    have hhigh : x/256<256^n := by
      rw [pow_succ] at h
      exact Nat.div_lt_of_lt_mul (by omega)
    have hlow : beNat [UInt8.ofNat x]=x%256 := by simp [beNat]
    rw [beBytes,beNat_append,ih hhigh,List.length_singleton,pow_one,hlow]
    exact Nat.div_add_mod' x 256

def pad (b : Bytes) : Bytes :=
  b++0x80::List.replicate ((119-b.length%64)%64) 0++beBytes 8 (8*b.length)

def blocks (b : Bytes) : List (List Word) := (((pad b).toChunks 4).map word).toChunks 16

def digest (b : Bytes) : BytesN 32 :=
  let s := (blocks b).foldl compress initial
  ⟨[s.a,s.b,s.c,s.d,s.e,s.f,s.g,s.h].flatMap wordBytes,rfl⟩

example : digest [0x61,0x62,0x63] =
    ⟨[0xba,0x78,0x16,0xbf,0x8f,0x01,0xcf,0xea,0x41,0x41,0x40,0xde,0x5d,0xae,0x22,0x23,
      0xb0,0x03,0x61,0xa3,0x96,0x17,0x7a,0x9c,0xb4,0x10,0xff,0x61,0xf2,0x00,0x15,0xad],rfl⟩ := by
  decide +kernel

def hexdigest (b : Bytes) : List Char := hex (digest b).1

end Framework.Sha256
