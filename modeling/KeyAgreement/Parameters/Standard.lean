import KeyAgreement.Parameters

/-! The standard parameter sets: three residue groups and three curves. -/
namespace KeyAgreement

/-- A subgroup of 160-bit order modulo a number of 1024 bits. -/
def residues1024 : ResidueGroup where
  serial := 0
  name := "I1024"
  modulus :=
    0xe0a67598cd1b763bc98c8abb333e5dda0cd3aa0e5e1fb5ba8a7b4eabc10ba338fae06dd4b90fda70d7cf0cb0c638be3341bec0af8a7330a3307ded2299a0ee606df035177a239c34a912c202aa5f83b9c4a7cf0235b5316bfc6efb9a248411258b30b839af172440f32563056cb67a861158ddd90e6a894c72a5bbef9e286c6b
  subgroupOrder := 0xe950511eab424b9a19a2aeb4e159b7844c589c4f
  base :=
    0xd29d5121b0423c2769ab21843e5a3240ff19cacc792264e3bb6be4f78edd1b15c4dff7f1d905431f0ab16790e1f773b5ce01c804e509066a9919f5195f4abc58189fd9ff987389cb5bedf21b4dab4f8b76a055ffe2770988fe2ec2de11ad92219f0b351869ac24da3d7ba87011a701ce8ee7bfe49486ed4527b7186ca4610a75
  order_dvd := by decide +kernel
  one_lt_base := by decide +kernel
  base_lt_modulus := by decide +kernel
  base_power := by decide +kernel

/-- A subgroup of 224-bit order modulo a number of 2048 bits. -/
def residues2048 : ResidueGroup where
  serial := 1
  name := "I2048"
  modulus :=
    0xc196ba05ac29e1f9c3c72d56dffc6154a033f1477ac88ec37f09be6c5bb95f51c296dd20d1a28a067ccc4d4316a4bd1dca55ed1066d438c35aebaabf57e7dae428782a95eca1c143db701fd48533a3c18f0fe23557ea7ae619ecacc7e0b51652a8776d02a425567ded36eabd90ca33a1e8d988f0bbb92d02d1d20290113bb562ce1fc856eeb7cdd92d33eea6f410859b179e7e789a8f75f645fae2e136d252bffaff89528945c1abe705a38dbc2d364aade99be0d0aad82e5320121496dc65b3930e38047294ff877831a16d5228418de8ab275d7d75651cefed65f78afc3ea7fe4d79b35f62a0402a1117599adac7b269a59f353cf450e6982d3b1702d9ca83
  subgroupOrder := 0x90eaf4d1af0708b1b612ff35e0a2997eb9e9d263c9ce659528945c0d
  base :=
    0xa59a749a11242c58c894e9e5a91804e8fa0ac64b56288f8d47d51b1edc4d65444feca0111d78f35fc9fdd4cb1f1b79a3ba9cbee83a3f811012503c8117f98e5048b089e387af6949bf8784ebd9ef45876f2e6a5a495be64b6e770409494b7fee1dbb1e4b2bc2a53d4f893d418b7159592e4fffdf6969e91d770daebd0b5cb14c00ad68ec7dc1e5745ea55c706c4a1c5c88964e34d09deb753ad418c1ad0f4fdfd049a955e5d78491c0b7a2f1575a008ccd727ab376db6e695515b05bd412f5b8c2f4c77ee10da48abd53f5dd498927ee7b692bbbcda2fb23a516c5b4533d73980b2a3b60e384ed200ae21b40d273651ad6060c13d97fd69aa13c5611a51b9085
  order_dvd := by decide +kernel
  one_lt_base := by decide +kernel
  base_lt_modulus := by decide +kernel
  base_power := by decide +kernel

/-- A subgroup of 256-bit order modulo a number of 3072 bits. -/
def residues3072 : ResidueGroup where
  serial := 2
  name := "I3072"
  modulus :=
    0x90066455b5cfc38f9caa4a48b4281f292c260feef01fd61037e56258a7795a1c7ad46076982ce6bb956936c6ab4dcfe05e6784586940ca544b9b2140e1eb523f009d20a7e7880e4e5bfa690f1b9004a27811cd9904af70420eefd6ea11ef7da129f58835ff56b89faa637bc9ac2efaab903402229f491d8d3485261cd068699b6ba58a1ddbbef6db51e8fe34e8a78e542d7ba351c21ea8d8f1d29f5d5d15939487e27f4416b0ca632c59efd1b1eb66511a5a0fbf615b766c5862d0bd8a3fe7a0e0da0fb2fe1fcb19e8f9996a8ea0fccde538175238fc8b0ee6f29af7f642773ebe8cd5402415a01451a840476b2fceb0e388d30d4b376c37fe401c2a2c2f941dad179c540c1c8ce030d460c4d983be9ab0b20f69144c1ae13f9383ea1c08504fb0bf321503efe43488310dd8dc77ec5b8349b8bfe97c2c560ea878de87c11e3d597f1fea742d73eec7f37be43949ef1a0d15c3f3e3fc0a8335617055ac91328ec22b50fc15b941d3d1624cd88bc25f3e941fddc6200689581bfec416b4b2cb73
  subgroupOrder := 0xcfa0478a54717b08ce64805b76e5b14249a77a4838469df7f7dc987efccfb11d
  base :=
    0x5e5cba992e0a680d885eb903aea78e4a45a469103d448ede3b7accc54d521e37f84a4bdd5b06b0970cc2d2bbb715f7b82846f9a0c393914c792e6a923e2117ab805276a975aadb5261d91673ea9aaffeecbfa6183dfcb5d3b7332aa19275afa1f8ec0b60fb6f66cc23ae4870791d5982aad1aa9485fd8f4a60126feb2cf05db8a7f0f09b3397f3937f2e90b9e5b9c9b6efef642bc48351c46fb171b9bfa9ef17a961ce96c7e7a7cc3d3d03dfad1078ba21da425198f07d2481622bce45969d9c4d6063d72ab7a0f08b2f49a7cc6af335e08c4720e31476b67299e231f8bd90b39ac3ae3be0c6b6cacef8289a2e2873d58e51e029cafbd55e6841489ab66b5b4b9ba6e2f784660896aff387d92844ccb8b69475496de19da2e58259b090489ac8e62363cdf82cfd8ef2a427abcd65750b506f56dde3b988567a88126b914d7828e2b63a6d7ed0747ec59e0e0a23ce7d8a74c1d2c2a7afb6a29799620f00e11c33787f7ded3b30e1a22d09f1fbda1abbbfbf25cae05a13f812e34563f99410e73b
  order_dvd := by decide +kernel
  one_lt_base := by decide +kernel
  base_lt_modulus := by decide +kernel
  base_power := by decide +kernel

def p256 : CurveGroup where
  serial := 3
  name := "P-256"
  curve := ⟨0xffffffff00000001000000000000000000000000ffffffffffffffffffffffff,
    -3,
    0x5ac635d8aa3a93e7b3ebbd55769886bc651d06b0cc53b0f63bce3c3e27d2604b⟩
  subgroupOrder := 0xffffffff00000000ffffffffffffffffbce6faada7179e84f3b9cac2fc632551
  cofactor := 1
  base := .affine
    0x6b17d1f2e12c4247f8bce6e563a440f277037d812deb33a0f4a13945d898c296
    0x4fe342e2fe1a7f9b8ee7eb4a7c0f9e162bce33576b315ececbb6406837bf51f5

def p384 : CurveGroup where
  serial := 4
  name := "P-384"
  curve := ⟨0xfffffffffffffffffffffffffffffffffffffffffffffffffffffffffffffffeffffffff0000000000000000ffffffff,
    -3,
    0xb3312fa7e23ee7e4988e056be3f82d19181d9c6efe8141120314088f5013875ac656398d8a2ed19d2a85c8edd3ec2aef⟩
  subgroupOrder :=
    0xffffffffffffffffffffffffffffffffffffffffffffffffc7634d81f4372ddf581a0db248b0a77aecec196accc52973
  cofactor := 1
  base := .affine
    0xaa87ca22be8b05378eb1c71ef320ad746e1d3b628ba79b9859f741e082542a385502f25dbf55296c3a545e3872760ab7
    0x3617de4a96262c6f5d9e98bf9292dc29f8f41dbd289a147ce9da3113b5f0b8c00a60b1ce1d7e819d7a431d7c90ea0e5f

def secp256k1 : CurveGroup where
  serial := 5
  name := "secp256k1"
  curve := ⟨0xfffffffffffffffffffffffffffffffffffffffffffffffffffffffefffffc2f,
    0,
    7⟩
  subgroupOrder := 0xfffffffffffffffffffffffffffffffebaaedce6af48a03bbfd25e8cd0364141
  cofactor := 1
  base := .affine
    0x79be667ef9dcbbac55a06295ce870b07029bfcdb2dce28d959f2815b16f81798
    0x483ada7726a3c4655da4fbfc0e1108a8fd17b448a68554199c47d08ffb10d4b8

namespace Parameters

/-- Serial numbers from here on are free for further groups and parameter sets. -/
def firstFreeSerial : Nat := 6

def residues1024 : Parameters := ⟨0, .residue KeyAgreement.residues1024, .sha256⟩
def residues2048 : Parameters := ⟨1, .residue KeyAgreement.residues2048, .sha256⟩
def residues3072 : Parameters := ⟨2, .residue KeyAgreement.residues3072, .sha256⟩
def p256 : Parameters := ⟨3, .curve KeyAgreement.p256, .sha256⟩
def p384 : Parameters := ⟨4, .curve KeyAgreement.p384, .sha384⟩
def secp256k1 : Parameters := ⟨5, .curve KeyAgreement.secp256k1, .sha256⟩

def standard : Parameters := p256

end Parameters
end KeyAgreement
