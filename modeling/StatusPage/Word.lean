namespace StatusPage

/-- Numbers below `2 ^ 64` fit a machine word. -/
def wordLimit : Nat := 0x10000000000000000

def leastSigned : Int := -0x8000000000000000

end StatusPage
