import Mathlib.Tactic

namespace KmodCeph

def enoent : Int := 2
def eio : Int := 5
def eagain : Int := 11
def enomem : Int := 12
def eexist : Int := 17
def einval : Int := 22
def ebadmsg : Int := 74

end KmodCeph
